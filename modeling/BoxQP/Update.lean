import BoxQP.Split
import BoxQP.UpperBound

/-!
# The multiplicative update

One iteration floors the iterate at `epsilon`, multiplies each coordinate by the ratio of growth to decay,
and cuts it at the upper bound. The synchronous schedule reads the floored iterate for all coordinates; the
sweep goes through the coordinates in order and lets each one read those before it as already updated.
-/

namespace BoxQP

/-- The order in which one iteration updates the coordinates. -/
inductive Schedule where
  | synchronous
  | gaussSeidel
  deriving DecidableEq

namespace Schedule

def all : List Schedule := [.synchronous, .gaussSeidel]

def name : Schedule → String
  | .synchronous => "synchronous"
  | .gaussSeidel => "gauss_seidel"

def ofName? (s : String) : Option Schedule := all.find? fun o => o.name == s

theorem ofName?_name (o : Schedule) : ofName? o.name = some o := by
  cases o <;> decide

end Schedule

variable {α : Type} [Arith α] {m n : Nat}

/-- The iterate with every coordinate raised to `epsilon`. -/
def Vec.floored (x : Vec α n) (epsilon : α) : Vec α n := Vec.ofFn fun i => Arith.max (x i) epsilon

namespace Split

/-- The new value of coordinate `i`, read at `x`. -/
def coordinate (s : Split α n) (bound : Option (UpperBound α n)) (x : Vec α n) (i : Fin n) : α :=
  UpperBound.cap bound i (x i * s.growth x i / s.decay x i)

def synchronous (s : Split α n) (epsilon : α) (bound : Option (UpperBound α n)) (x : Vec α n) :
    Vec α n :=
  let c := Vec.floored x epsilon
  Vec.ofFn fun i => s.coordinate bound c i

/-- The floored iterate `c` after the first `k` coordinates of a sweep. -/
def sweepTo (s : Split α n) (bound : Option (UpperBound α n)) (c : Vec α n) :
    (k : Nat) → k ≤ n → Vec α n
  | 0, _ => c
  | k + 1, inside =>
    let x := sweepTo s bound c k (Nat.le_of_succ_le inside)
    x.put ⟨k, inside⟩ (s.coordinate bound x ⟨k, inside⟩)

/-- A sweep over at least one coordinate. Over none it would be empty, but a call refuses that, since it reads
an entry before it knows that there is none: calls on arrays go through `update?`. -/
def sweep (s : Split α n) (epsilon : α) (bound : Option (UpperBound α n)) (x : Vec α n) : Vec α n :=
  s.sweepTo bound (Vec.floored x epsilon) n (Nat.le_refl n)

/-- One iteration under the given schedule. -/
def update (s : Split α n) (o : Schedule) (epsilon : α) (bound : Option (UpperBound α n))
    (x : Vec α n) : Vec α n :=
  match o with
  | .synchronous => s.synchronous epsilon bound x
  | .gaussSeidel => s.sweep epsilon bound x

end Split

namespace Schedule

omit [Arith α] in
/-- How a schedule reads an upper bound given as an array: the synchronous one takes an entrywise minimum
with the iterate, the sweep repeats the bound to the length of the iterate. -/
def bound? (o : Schedule) (n : Nat) (t : Tensor α) : Except Fault (UpperBound α n) :=
  match o with
  | .synchronous => UpperBound.combined? n t
  | .gaussSeidel => UpperBound.spread? n t

omit [Arith α] in
def optionalBound? (o : Schedule) (n : Nat) (bound : Option (Tensor α)) :
    Except Fault (Option (UpperBound α n)) :=
  match bound with
  | none => .ok none
  | some t => (o.bound? n t).map some

end Schedule

namespace Split

omit [Arith α] in
/-- The split as one of size `n`. -/
def resize? (s : Split α m) (n : Nat) : Except Fault (Split α n) :=
  if same : m = n then .ok (same ▸ s) else .error .sizesDiffer

omit [Arith α] in
/-- What one iteration works with, checked in the order in which the schedule comes to it. -/
def operands? (s : Split α m) (o : Schedule) (n : Nat) (bound : Option (Tensor α)) :
    Except Fault (Split α n × Option (UpperBound α n)) := do
  match o with
  | .synchronous =>
    let s ← s.resize? n
    let b ← o.optionalBound? n bound
    .ok (s, b)
  | .gaussSeidel =>
    let b ← o.optionalBound? n bound
    if m = 0 then .error .noEntry
    else
      let s ← s.resize? n
      .ok (s, b)

/-- One iteration with a split and a bound of any size and shape. -/
def update? (s : Split α m) (o : Schedule) (epsilon : α) (bound : Option (Tensor α)) (x : Vec α n) :
    Except Fault (Vec α n) := do
  let (s, b) ← s.operands? o n bound
  .ok (s.update o epsilon b x)

theorem floored_apply (x : Vec α n) (epsilon : α) (i : Fin n) :
    Vec.floored x epsilon i = Arith.max (x i) epsilon :=
  Vec.ofFn_apply _ i

theorem synchronous_apply (s : Split α n) (epsilon : α) (bound : Option (UpperBound α n))
    (x : Vec α n) (i : Fin n) :
    s.synchronous epsilon bound x i = s.coordinate bound (Vec.floored x epsilon) i :=
  Vec.ofFn_apply _ i

theorem sweepTo_succ (s : Split α n) (bound : Option (UpperBound α n)) (c : Vec α n) (k : Nat)
    (inside : k < n) :
    s.sweepTo bound c (k + 1) inside
      = (s.sweepTo bound c k (Nat.le_of_lt inside)).put ⟨k, inside⟩
          (s.coordinate bound (s.sweepTo bound c k (Nat.le_of_lt inside)) ⟨k, inside⟩) := rfl

/-- A coordinate that the sweep has not reached is as it was. -/
theorem sweepTo_apply_of_le (s : Split α n) (bound : Option (UpperBound α n)) (z : Vec α n) (k : Nat)
    (inside : k ≤ n) (i : Fin n) (ahead : k ≤ i.val) : s.sweepTo bound z k inside i = z i := by
  induction k with
  | zero => rfl
  | succ k ih =>
    rw [sweepTo_succ, Vec.put_apply_ne _ _ _ _ fun same => Nat.ne_of_lt ahead (congrArg Fin.val same)]
    exact ih (Nat.le_of_lt inside) (Nat.le_of_lt ahead)

/-- A coordinate that the sweep has passed keeps the value it was given when the sweep came to it. -/
theorem sweepTo_apply_of_lt (s : Split α n) (bound : Option (UpperBound α n)) (c : Vec α n) (k : Nat)
    (inside : k ≤ n) (i : Fin n) (passed : i.val < k) :
    s.sweepTo bound c k inside i
      = s.coordinate bound (s.sweepTo bound c i.val (Nat.le_of_lt i.isLt)) i := by
  induction k with
  | zero => omega
  | succ k ih =>
    rw [sweepTo_succ]
    by_cases here : k = i.val
    · subst here
      exact Vec.put_apply_self _ i _
    · rw [Vec.put_apply_ne _ _ _ _ fun same => here (congrArg Fin.val same)]
      exact ih (Nat.le_of_lt inside) (by omega)

end Split

end BoxQP
