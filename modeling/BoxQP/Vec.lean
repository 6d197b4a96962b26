import BoxQP.Arithmetic

/-!
# Vectors and matrices

Vectors of a fixed length and matrices by rows, over any arithmetic. A vector is used as the function of
its index. Sums run from the first term to the last, starting at zero, but one term alone is not added to
anything.
-/

namespace BoxQP

abbrev Vec (α : Type) (n : Nat) := Vector α n

abbrev Mat (α : Type) (m n : Nat) := Vector (Vector α n) m

/-- A vector applies like the function of its index. -/
instance Vec.coeFun (α : Type) (n : Nat) : CoeFun (Vector α n) (fun _ => Fin n → α) := ⟨Vector.get⟩

variable {α : Type} {m n : Nat}

/-- The sum of `f 0`, `f 1`, …, in this order. One term is its own sum, which shows where adding a
negative zero to zero would change its sign. -/
@[specialize]
def sum [Arith α] : {n : Nat} → (Fin n → α) → α
  | 1, f => f ⟨0, Nat.one_pos⟩
  | n, f => Fin.foldl n (fun acc i => acc + f i) 0

theorem sum_zero [Arith α] (f : Fin 0 → α) : sum f = 0 :=
  Fin.foldl_zero (fun acc i => acc + f i) 0

theorem sum_one [Arith α] (f : Fin 1 → α) : sum f = f ⟨0, Nat.one_pos⟩ := rfl

/-- The sum of two or more terms. -/
theorem sum_add_two [Arith α] (f : Fin (n + 2) → α) :
    sum f = Fin.foldl (n + 2) (fun acc i => acc + f i) 0 := rfl

namespace Vec

@[inline]
def ofFn (f : Fin n → α) : Vec α n := Vector.ofFn f

def first (v : Vec α (n + 1)) : α := v.get ⟨0, Nat.succ_pos n⟩

/-- The vector with the entry `i` replaced. -/
def put (v : Vec α n) (i : Fin n) (a : α) : Vec α n := v.set i.val a i.isLt

@[simp]
theorem ofFn_apply (f : Fin n → α) (i : Fin n) : ofFn f i = f i :=
  Vector.getElem_ofFn i.isLt

@[simp]
theorem put_apply_self (v : Vec α n) (i : Fin n) (a : α) : v.put i a i = a :=
  Vector.getElem_set_self i.isLt

theorem put_apply_ne (v : Vec α n) (i j : Fin n) (a : α) (other : i ≠ j) : v.put i a j = v j :=
  Vector.getElem_set_ne i.isLt j.isLt fun same => other (Fin.ext same)

@[simp]
theorem replicate_apply (a : α) (i : Fin n) : Vector.replicate n a i = a :=
  Vector.getElem_replicate i.isLt

theorem ext_apply {u v : Vec α n} (same : ∀ i, u i = v i) : u = v := by
  apply Vector.ext
  intro i inside
  exact same ⟨i, inside⟩

@[specialize]
def dot [Arith α] (u v : Vec α n) : α := sum fun i => u i * v i

/-- The largest entry, undefined as soon as one entry is; of no entries it is zero. -/
def largest [Arith α] : {n : Nat} → Vec α n → α
  | 0, _ => 0
  | n + 1, v => Fin.foldl n (fun acc i => Arith.max acc (v i.succ)) v.first

def allFinite [Arith α] (v : Vec α n) : Bool := v.all Arith.isFinite

end Vec

namespace Mat

def ofFn (f : Fin m → Fin n → α) : Mat α m n := Vec.ofFn fun i => Vec.ofFn fun j => f i j

@[specialize]
def apply [Arith α] (M : Mat α m n) (x : Vec α n) : Vec α m := Vec.ofFn fun i => Vec.dot (M i) x

def transpose (M : Mat α m n) : Mat α n m := ofFn fun i j => M j i

@[simp]
theorem ofFn_apply (f : Fin m → Fin n → α) (i : Fin m) (j : Fin n) : ofFn f i j = f i j := by
  rw [ofFn, Vec.ofFn_apply, Vec.ofFn_apply]

@[simp]
theorem transpose_apply (M : Mat α m n) (i : Fin n) (j : Fin m) : M.transpose i j = M j i :=
  ofFn_apply _ i j

@[simp]
theorem apply_apply [Arith α] (M : Mat α m n) (x : Vec α n) (i : Fin m) :
    M.apply x i = Vec.dot (M i) x :=
  Vec.ofFn_apply _ i

end Mat

end BoxQP
