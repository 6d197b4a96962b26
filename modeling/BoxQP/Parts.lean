import BoxQP.Broadcast
import BoxQP.Update

/-!
# Updates by parts of any shape

The four parts of a split may be handed over as arrays, some of them missing. Nothing is asked of their
shapes beforehand: an update works as far as the arithmetic on arrays goes, and fails at the first step that
has no answer. Its result has to be a vector of the length of the iterate.
-/

namespace BoxQP

/-- Arrays in the place of the parts of a split. -/
structure Parts (α : Type) where
  posQ : Option (Tensor α)
  negQ : Option (Tensor α)
  posH : Option (Tensor α)
  negH : Option (Tensor α)

namespace Parts

variable {α : Type} {n : Nat}

def given (part : Option (Tensor α)) : Except Fault (Tensor α) :=
  match part with
  | some t => .ok t
  | none => .error .missingPart

variable [Arith α]

/-- A gradient of one part: the product of its matrix with `c`, plus its vector. -/
def gradient? (Q h : Option (Tensor α)) (c : Vec α n) : Except Fault (Tensor α) := do
  let Q ← given Q
  let product ← Q.product? c
  let h ← given h
  product.combine? (· + ·) h

/-- The gradient of one part at coordinate `i`. -/
def gradientAt? (Q h : Option (Tensor α)) (c : Vec α n) (i : Nat) : Except Fault (Tensor α) := do
  let Q ← given Q
  let row ← Q.slice? i
  let product ← row.scaledProduct? c
  let h ← given h
  let own ← h.slice? i
  product.combine? (· + ·) own

def synchronous? (p : Parts α) (epsilon : α) (bound : Option (Tensor α)) (x : Vec α n) :
    Except Fault (Vec α n) := do
  let c := Vec.floored x epsilon
  let growth ← gradient? p.negQ p.posH c
  let scaled ← (Tensor.ofVec c).combine? (· * ·) growth
  let decay ← gradient? p.posQ p.negH c
  let ratio ← scaled.combine? (· / ·) decay
  let y ← match bound with
    | none => .ok ratio
    | some b => ratio.combine? Arith.min b
  match y.vectorOf? n with
  | some y => .ok y
  | none => .error .shapeChanges

/-- What coordinate `i` becomes in a sweep that has come to `x`, before it is cut at a bound. -/
def ratio? (p : Parts α) (x : Vec α n) (i : Nat) : Except Fault (Tensor α) := do
  let growth ← gradientAt? p.negQ p.posH x i
  let decay ← gradientAt? p.posQ p.negH x i
  let own ← (Tensor.ofVec x).slice? i
  let scaled ← own.combine? (· * ·) growth
  scaled.combine? (· / ·) decay

/-- The iterate `c` after the first `k` coordinates of a sweep. -/
def sweepTo? (p : Parts α) (bound : Option (UpperBound α n)) (c : Vec α n) :
    (k : Nat) → k ≤ n → Except Fault (Vec α n)
  | 0, _ => .ok c
  | k + 1, inside => do
    let x ← sweepTo? p bound c k (Nat.le_of_succ_le inside)
    let y ← (← p.ratio? x k).number?
    .ok (x.put ⟨k, inside⟩ (UpperBound.cap bound ⟨k, inside⟩ y))

/-- One sweep. Where there is no coordinate it fails as the first one would. -/
def sweep? (p : Parts α) (epsilon : α) (bound : Option (Tensor α)) (x : Vec α n) :
    Except Fault (Vec α n) := do
  let c := Vec.floored x epsilon
  let b ← Schedule.gaussSeidel.optionalBound? n bound
  if n = 0 then
    let _ ← p.ratio? c 0
    .ok c
  else p.sweepTo? b c n (Nat.le_refl n)

def update? (p : Parts α) (o : Schedule) (epsilon : α) (bound : Option (Tensor α)) (x : Vec α n) :
    Except Fault (Vec α n) :=
  match o with
  | .synchronous => p.synchronous? epsilon bound x
  | .gaussSeidel => p.sweep? epsilon bound x

end Parts

end BoxQP
