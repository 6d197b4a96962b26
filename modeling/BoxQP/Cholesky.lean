import BoxQP.Vec

/-!
# Cholesky factors

The factor of a positive definite matrix, built from the first row inwards: the first pivot and the rest of
its row border the factor of what is left. Only the diagonal and the entries above it are read. A matrix
with a pivot that is not positive has no factor.
-/

namespace BoxQP

/-- The factor of a matrix of size `n`; a border is one pivot and the scaled rest of its row. -/
inductive Factor (α : Type) : Nat → Type where
  | empty : Factor α 0
  | border {n : Nat} (pivot : α) (row : Vec α n) (rest : Factor α n) : Factor α (n + 1)

variable {α : Type} {n : Nat}

namespace Vec

/-- A first entry in front of the others. -/
def withFirst (x : α) (v : Vec α n) : Vec α (n + 1) :=
  Vec.ofFn fun i => Fin.cases x (fun j => v j) i

theorem first_withFirst (x : α) (v : Vec α n) : (withFirst x v).first = x :=
  Vec.ofFn_apply _ _

theorem withFirst_apply_succ (x : α) (v : Vec α n) (i : Fin n) : withFirst x v i.succ = v i :=
  Vec.ofFn_apply _ _

end Vec

namespace Factor

/-- What remains of a matrix when the first row, scaled to `row`, has been taken off. -/
def remainder [Arith α] (H : Mat α (n + 1) (n + 1)) (row : Vec α n) : Mat α n n :=
  Mat.ofFn fun i j => H i.succ j.succ - row i * row j

def ofMat? [Arith α] : (n : Nat) → Mat α n n → Option (Factor α n)
  | 0, _ => some .empty
  | n + 1, H =>
    let top : Vec α (n + 1) := Vec.first H
    if Arith.lt 0 top.first then
      let pivot := Arith.sqrt top.first
      let row : Vec α n := Vec.ofFn fun j => top j.succ / pivot
      (ofMat? n (remainder H row)).map (.border pivot row)
    else none

/-- The factor with no defined entry. -/
def undefined [Arith α] : (n : Nat) → Factor α n
  | 0 => .empty
  | n + 1 => .border Arith.undefined (Vector.replicate n Arith.undefined) (undefined n)

/-- The factor of `H`, undefined throughout if there is none. -/
def ofMat [Arith α] (H : Mat α n n) : Factor α n := (ofMat? n H).getD (undefined n)

/-- Solves `H x = b` for the matrix `H` of the factor: one triangular solve on the way in, the other on the
way out. -/
def solve [Arith α] : {n : Nat} → Factor α n → Vec α n → Vec α n
  | _, .empty, b => b
  | _, .border pivot row rest, b =>
    let y := b.first / pivot
    let z := solve rest (Vec.ofFn fun i => b i.succ - y * row i)
    Vec.withFirst ((y - Vec.dot row z) / pivot) z

end Factor

end BoxQP
