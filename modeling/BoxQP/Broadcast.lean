import BoxQP.Tensor

/-!
# Arithmetic on arrays of any shape

Two arrays are combined entry by entry after an axis that is missing or of extent one in one of them has
been repeated to the extent it has in the other. A product with a vector sums over the last axis.
-/

namespace BoxQP

namespace Shape

/-- The place in an array of the second shape that is repeated at place `k` of an array of the first; both
shapes from the last axis on. -/
def sourceFrom : List Nat → List Nat → Nat → Nat
  | w :: whole, a :: part, k =>
    (if a = 1 then 0 else k % w) + a * sourceFrom whole part (k / w)
  | _, _, _ => 0

/-- The place in an array of shape `part` that is repeated at place `k` of one of shape `whole`. -/
def source (whole part : List Nat) (k : Nat) : Nat := sourceFrom whole.reverse part.reverse k

end Shape

namespace Tensor

variable {α : Type} [Arith α] {n : Nat}

/-- The entry at place `k` in row-major order, zero after the last one. -/
def entry (t : Tensor α) (k : Nat) : α :=
  if inside : k < Shape.volume t.shape then t.entries ⟨k, inside⟩ else 0

/-- Combines two arrays entry by entry. -/
def combine? (f : α → α → α) (s t : Tensor α) : Except Fault (Tensor α) :=
  match Shape.combine? s.shape t.shape with
  | some whole =>
    .ok ⟨whole, Vec.ofFn fun k =>
      f (s.entry (Shape.source whole s.shape k.val)) (t.entry (Shape.source whole t.shape k.val))⟩
  | none => .error (if s.shape.length = t.shape.length then .sizesDiffer else .ranksClash)

/-- The products of the rows of an array, along its last axis, with a vector. -/
def timesRows? (M : Tensor α) (x : Vec α n) : Except Fault (Tensor α) :=
  if M.shape.getLast? = some n then
    .ok ⟨M.shape.dropLast, Vec.ofFn fun k => sum fun j : Fin n => M.entry (k.val * n + j.val) * x j⟩
  else .error .sizesDiffer

/-- The product of an array that has an axis with a vector. -/
def product? (M : Tensor α) (x : Vec α n) : Except Fault (Tensor α) :=
  match M.shape with
  | [] => .error .scalarFactor
  | _ => M.timesRows? x

/-- The product of an array with a vector, where a single number scales the vector. -/
def scaledProduct? (M : Tensor α) (x : Vec α n) : Except Fault (Tensor α) :=
  match M.shape with
  | [] => .ok (ofVec (Vec.ofFn fun j => M.entry 0 * x j))
  | _ => M.timesRows? x

/-- The part of an array at place `i` of its first axis, or at its last place if there are fewer. -/
def slice? (t : Tensor α) (i : Nat) : Except Fault (Tensor α) :=
  match t.shape with
  | [] => .error .noEntry
  | 0 :: _ => .error .noEntry
  | (k + 1) :: s => .ok ⟨s, Vec.ofFn fun j => t.entry (min i k * Shape.volume s + j.val)⟩

/-- The number that an array without axes holds. -/
def number? (t : Tensor α) : Except Fault α :=
  match t.shape with
  | [] => .ok (t.entry 0)
  | _ => .error .severalNumbers

end Tensor

end BoxQP
