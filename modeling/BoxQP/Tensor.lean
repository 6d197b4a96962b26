import BoxQP.Fault
import BoxQP.Vec

/-!
# Arrays of any shape

An array holds as many entries as its shape says, in row-major order. Vectors and matrices are read off
an array of the matching shape; a vector may also be given as a single column.
-/

namespace BoxQP

structure Tensor (α : Type) where
  shape : List Nat
  entries : Vec α (Shape.volume shape)

namespace Tensor

variable {α : Type} {m n : Nat}

def size (t : Tensor α) : Nat := Shape.volume t.shape

/-- An array of the given shape from its entries in row-major order. -/
def ofFlat? (shape : List Nat) (xs : List α) : Option (Tensor α) :=
  if h : xs.length = Shape.volume shape then
    some ⟨shape, ⟨xs.toArray, by simpa using h⟩⟩
  else none

def scalar (x : α) : Tensor α := ⟨[], #v[x]⟩

def ofVec (v : Vec α n) : Tensor α := ⟨[n], v.cast (Shape.volume_singleton n).symm⟩

/-- The single column with the entries of `v`. -/
def columnOf (v : Vec α n) : Tensor α := ⟨[n, 1], v.cast (Shape.volume_column n).symm⟩

theorem row_lt {k : Nat} (h : k < Shape.volume [m, n]) : k / n < m := by
  rw [Shape.volume_pair, Nat.mul_comm] at h
  exact Nat.div_lt_of_lt_mul h

theorem column_lt {k : Nat} (h : k < Shape.volume [m, n]) : k % n < n := by
  rw [Shape.volume_pair] at h
  exact Nat.mod_lt _ (Nat.pos_of_mul_pos_left (Nat.zero_lt_of_lt h))

def ofMat (M : Mat α m n) : Tensor α :=
  ⟨[m, n], Vec.ofFn fun k => M ⟨k.val / n, row_lt k.isLt⟩ ⟨k.val % n, column_lt k.isLt⟩⟩

theorem flat_lt (i : Fin m) (j : Fin n) : i.val * n + j.val < Shape.volume [m, n] := by
  rw [Shape.volume_pair]
  calc i.val * n + j.val < i.val * n + n := Nat.add_lt_add_left j.isLt _
    _ = (i.val + 1) * n := by rw [Nat.succ_mul]
    _ ≤ m * n := Nat.mul_le_mul_right n i.isLt

/-- The array as a vector, when it has one axis. -/
def vector? : Tensor α → Option ((n : Nat) × Vec α n)
  | ⟨[n], e⟩ => some ⟨n, e.cast (Shape.volume_singleton n)⟩
  | _ => none

/-- The array as a vector, when it has one axis or is a single column. -/
def column? : Tensor α → Option ((n : Nat) × Vec α n)
  | ⟨[n], e⟩ => some ⟨n, e.cast (Shape.volume_singleton n)⟩
  | ⟨[n, 1], e⟩ => some ⟨n, e.cast (Shape.volume_column n)⟩
  | _ => none

/-- The array as a vector of length `n`. -/
def vectorOf? (n : Nat) (t : Tensor α) : Option (Vec α n) :=
  if h : t.shape = [n] then
    some (t.entries.cast (by rw [h, Shape.volume_singleton]))
  else none

/-- The array as a matrix of `m` rows and `n` columns. -/
def matrixOf? (m n : Nat) (t : Tensor α) : Option (Mat α m n) :=
  if h : t.shape = [m, n] then
    let e : Vec α (Shape.volume [m, n]) := t.entries.cast (by rw [h])
    some (Mat.ofFn fun i j => e ⟨i.val * n + j.val, flat_lt i j⟩)
  else none

theorem vector?_ofVec (v : Vec α n) : (ofVec v).vector? = some ⟨n, v⟩ := rfl

theorem column?_ofVec (v : Vec α n) : (ofVec v).column? = some ⟨n, v⟩ := rfl

theorem column?_columnOf (v : Vec α n) : (columnOf v).column? = some ⟨n, v⟩ := rfl

theorem vectorOf?_ofVec (v : Vec α n) : (ofVec v).vectorOf? n = some v :=
  dif_pos rfl

theorem matrixOf?_ofMat (M : Mat α m n) : (ofMat M).matrixOf? m n = some M := by
  have same : (ofMat M).shape = [m, n] := rfl
  rw [matrixOf?, dif_pos same]
  refine congrArg some (Vec.ext_apply fun i => Vec.ext_apply fun j => ?_)
  have row : (i.val * n + j.val) / n = i.val := by
    rw [Nat.mul_comm, Nat.mul_add_div (Nat.zero_lt_of_lt j.isLt), Nat.div_eq_of_lt j.isLt,
      Nat.add_zero]
  have column : (i.val * n + j.val) % n = j.val := by
    rw [Nat.mul_comm, Nat.mul_add_mod, Nat.mod_eq_of_lt j.isLt]
  rw [Mat.ofFn_apply]
  exact (Vec.ofFn_apply _ _).trans (by congr)

end Tensor

end BoxQP
