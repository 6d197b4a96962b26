import BoxQP.Parts
import BoxQP.Solve
import BoxQP.Proofs.Readings
import Mathlib.Logic.Function.Iterate

/-!
# Updates of arrays that fit each other

An update on arrays checks shapes at every step and may fail at each. On the parts of a
split, written out as two square matrices and two vectors, and under a bound that is a
number, a single entry or one entry for each coordinate, no step fails, and the result is
the update on vectors. Each operation on arrays is first read as the one on vectors that
it is there; both schedules follow from these equations. No law of the arithmetic is used.
-/

namespace BoxQP

open UpperBound

variable {α : Type} [Arith α] {m n : Nat}

omit [Arith α] in
theorem Iteration.iterate_eq_iterate (it : Iteration α n) (x : Vec α n) (k : Nat) :
    it.iterate x k = it.next^[k] x := by
  induction k with
  | zero => rfl
  | succ k ih => rw [iterate, ih, Function.iterate_succ_apply']

namespace Shape

theorem source_self (i : Fin n) : source [n] [n] i.val = i.val := by
  have inside : i.val % n = i.val := Nat.mod_eq_of_lt i.isLt
  by_cases one : n = 1
  · have := i.isLt
    simp [source, sourceFrom, one]
    omega
  · simp [source, sourceFrom, one, inside]

end Shape

namespace Tensor

theorem entry_of_lt (t : Tensor α) {k : Nat} (inside : k < Shape.volume t.shape) :
    t.entry k = t.entries ⟨k, inside⟩ := dif_pos inside

theorem entry_ofVec (v : Vec α n) (i : Fin n) : (ofVec v).entry i = v i :=
  (ofVec v).entry_of_lt ((Shape.volume_singleton n).symm ▸ i.isLt)

/-- The entries of a matrix are those of its array, row after row. -/
theorem matrixOf?_eq_some_iff (t : Tensor α) (M : Mat α m n) :
    t.matrixOf? m n = some M ↔ t.shape = [m, n] ∧ ∀ i j, M i j = t.entry (i * n + j) := by
  rw [matrixOf?]
  by_cases shape : t.shape = [m, n]
  · have inside (i : Fin m) (j : Fin n) : i.val * n + j.val < Shape.volume t.shape :=
      shape ▸ flat_lt i j
    rw [dif_pos shape, Option.some_inj]
    constructor
    · rintro rfl
      refine ⟨shape, fun i j => ?_⟩
      rw [Mat.ofFn_apply, t.entry_of_lt (inside i j)]
      rfl
    · rintro ⟨-, entries⟩
      refine Vec.ext_apply fun i => Vec.ext_apply fun j => ?_
      rw [Mat.ofFn_apply, entries, t.entry_of_lt (inside i j)]
      rfl
  · rw [dif_neg shape]
    simp [shape]

/-- The entries of a vector are those of its array. -/
theorem vectorOf?_eq_some_iff (t : Tensor α) (v : Vec α n) :
    t.vectorOf? n = some v ↔ t.shape = [n] ∧ ∀ i : Fin n, v i = t.entry i := by
  rw [vectorOf?]
  by_cases shape : t.shape = [n]
  · have inside (i : Fin n) : i.val < Shape.volume t.shape := by
      rw [shape, Shape.volume_singleton]
      exact i.isLt
    rw [dif_pos shape, Option.some_inj]
    constructor
    · rintro rfl
      refine ⟨shape, fun i => ?_⟩
      rw [t.entry_of_lt (inside i)]
      rfl
    · rintro ⟨-, entries⟩
      refine Vec.ext_apply fun i => ?_
      rw [entries, t.entry_of_lt (inside i)]
      rfl
  · rw [dif_neg shape]
    simp [shape]

theorem entry_ofMat (M : Mat α m n) (i : Fin m) (j : Fin n) :
    (ofMat M).entry (i * n + j) = M i j :=
  (((matrixOf?_eq_some_iff _ M).mp (matrixOf?_ofMat M)).2 i j).symm

omit [Arith α] in
/-- An array of one axis is the vector of its entries. -/
theorem mk_eq_ofVec (e : Vec α (Shape.volume [n])) (f : Fin n → α)
    (same : ∀ i : Fin n, e ⟨i, (Shape.volume_singleton n).symm ▸ i.isLt⟩ = f i) :
    (⟨[n], e⟩ : Tensor α) = ofVec (Vec.ofFn f) := by
  refine congrArg (Tensor.mk [n]) (Vec.ext_apply fun i => ?_)
  have inside : i.val < n := Nat.lt_of_lt_of_eq i.isLt (Shape.volume_singleton n)
  exact (same ⟨i, inside⟩).trans (Vec.ofFn_apply f ⟨i, inside⟩).symm

omit [Arith α] in
theorem mk_eq_scalar (e : Vec α (Shape.volume [])) (a : α) (same : e ⟨0, Nat.one_pos⟩ = a) :
    (⟨[], e⟩ : Tensor α) = scalar a := by
  refine congrArg (Tensor.mk []) (Vec.ext_apply fun i => ?_)
  obtain rfl : i = ⟨0, Nat.one_pos⟩ := Fin.ext (Nat.lt_one_iff.mp i.isLt)
  exact same

/-- A vector is combined with an array of the same or of no extent in its place. -/
theorem combine?_ofVec (f : α → α → α) (u : Vec α n) {t : Tensor α} (fits : Fits n t) :
    (ofVec u).combine? f t
      = .ok (ofVec (Vec.ofFn fun i => f (u i) (t.entry (Shape.source [n] t.shape i)))) := by
  have whole : Shape.combine? (ofVec u).shape t.shape = some [n] := fits.combine?_eq
  rw [combine?, whole]
  refine congrArg Except.ok (mk_eq_ofVec _ _ fun i => ?_)
  have own : Shape.source [n] (ofVec u).shape i.val = i.val := Shape.source_self i
  rw [Vec.ofFn_apply, own, entry_ofVec]

theorem combine?_vectors (f : α → α → α) (u v : Vec α n) :
    (ofVec u).combine? f (ofVec v) = .ok (ofVec (Vec.ofFn fun i => f (u i) (v i))) := by
  have own (i : Fin n) : (ofVec v).entry (Shape.source [n] (ofVec v).shape i) = v i := by
    rw [← entry_ofVec v i]
    exact congrArg (ofVec v).entry (Shape.source_self i)
  simp only [combine?_ofVec f u (Or.inr (Or.inr rfl) : Fits n (ofVec v)), own]

theorem combine?_scalars (f : α → α → α) (a b : α) :
    (scalar a).combine? f (scalar b) = .ok (scalar (f a b)) :=
  congrArg Except.ok (mk_eq_scalar _ _ (Vec.ofFn_apply _ _))

theorem product?_ofMat (M : Mat α m n) (x : Vec α n) :
    (ofMat M).product? x = .ok (ofVec (M.apply x)) := by
  change (ofMat M).timesRows? x = _
  have last : (ofMat M).shape.getLast? = some n := rfl
  rw [timesRows?, if_pos last, Mat.apply]
  refine congrArg Except.ok (mk_eq_ofVec _ _ fun i => ?_)
  have products : (fun j : Fin n => (ofMat M).entry (i.val * n + j.val) * x j)
      = fun j => M i j * x j := by
    funext j
    rw [entry_ofMat]
  exact (Vec.ofFn_apply _ _).trans (congrArg sum products)

/-- A vector in the place of a matrix is its only row. -/
theorem scaledProduct?_ofVec (r x : Vec α n) :
    (ofVec r).scaledProduct? x = .ok (scalar (Vec.dot r x)) := by
  change (ofVec r).timesRows? x = _
  have last : (ofVec r).shape.getLast? = some n := rfl
  rw [timesRows?, if_pos last]
  refine congrArg Except.ok (mk_eq_scalar _ _ ?_)
  have products : (fun j : Fin n => (ofVec r).entry (0 * n + j.val) * x j)
      = fun j => r j * x j := by
    funext j
    rw [Nat.zero_mul, Nat.zero_add, entry_ofVec]
  exact (Vec.ofFn_apply _ _).trans (congrArg sum products)

/-- The part of a matrix at place `i` is its row `i`. -/
theorem slice?_ofMat (M : Mat α m n) (i : Fin m) : (ofMat M).slice? i = .ok (ofVec (M i)) := by
  cases m with
  | zero => exact i.elim0
  | succ k =>
    have inside : min i.val k = i.val := Nat.min_eq_left (Nat.le_of_lt_succ i.isLt)
    have row : ofVec (M i) = ofVec (Vec.ofFn (M i)) :=
      congrArg ofVec (Vec.ext_apply fun j => (Vec.ofFn_apply _ j).symm)
    rw [row]
    refine congrArg Except.ok (mk_eq_ofVec _ _ fun j => ?_)
    have place : min i.val k * Shape.volume [n] + j.val = i.val * n + j.val := by
      rw [inside, Shape.volume_singleton]
    exact (Vec.ofFn_apply _ _).trans ((congrArg (ofMat M).entry place).trans (entry_ofMat M i j))

theorem slice?_ofVec (v : Vec α n) (i : Fin n) : (ofVec v).slice? i = .ok (scalar (v i)) := by
  cases n with
  | zero => exact i.elim0
  | succ k =>
    have inside : min i.val k = i.val := Nat.min_eq_left (Nat.le_of_lt_succ i.isLt)
    refine congrArg Except.ok (mk_eq_scalar _ _ ?_)
    have place : min i.val k * Shape.volume [] + 0 = i.val := by
      rw [inside, Nat.add_zero]
      exact Nat.mul_one _
    exact (Vec.ofFn_apply _ _).trans ((congrArg (ofVec v).entry place).trans (entry_ofVec v i))

end Tensor

/-- Taken as a bound, the array cuts coordinate `i` at its only entry or at entry `i`. -/
def Tensor.limitAt (t : Tensor α) (i : Nat) : α := t.entry (if t.size = 1 then 0 else i)

theorem Tensor.limit_of_ofEntries? {t : Tensor α} {b : UpperBound α n}
    (read : UpperBound.ofEntries? n t = some b) (i : Fin n) : b.limit i = t.limitAt i := by
  by_cases single : t.size = 1
  · rw [UpperBound.ofEntries?, dif_pos single] at read
    cases read
    rw [limitAt, if_pos single, t.entry_of_lt (by rw [← size, single]; exact Nat.one_pos)]
    rfl
  · rw [UpperBound.ofEntries?, dif_neg single] at read
    by_cases full : t.size = n
    · rw [dif_pos full] at read
      cases read
      rw [limitAt, if_neg single, t.entry_of_lt (by rw [← size, full]; exact i.isLt)]
      rfl
    · rw [dif_neg full] at read
      cases read

/-- In a combination with a vector a bound that fits meets each coordinate with its limit. -/
theorem UpperBound.Fits.entry_source {t : Tensor α} {b : UpperBound α n} (fits : Fits n t)
    (reading : ofEntries? n t = some b) (i : Fin n) :
    t.entry (Shape.source [n] t.shape i) = b.limit i := by
  rw [Tensor.limit_of_ofEntries? reading, Tensor.limitAt]
  by_cases single : t.size = 1
  · have first : Shape.source [n] t.shape i = 0 := by
      rcases fits with shape | shape | shape
      · rw [shape]
        rfl
      · rw [shape]
        rfl
      · rw [shape, Shape.source_self]
        have : n = 1 := by rwa [Tensor.size, shape, Shape.volume_singleton] at single
        omega
    rw [if_pos single, first]
  · rw [if_neg single, fits.size_eq.resolve_left single, Shape.source_self]

namespace UpperBound

omit [Arith α] in
/-- A bound that is written out fits. -/
theorem fits_toTensor {b : Option (UpperBound α n)} : ∀ t ∈ b.map toTensor, Fits n t := by
  rcases b with - | u | u
  · exact fun _ given => nomatch given
  · rintro _ ⟨⟩
    exact Or.inl rfl
  · rintro _ ⟨⟩
    exact Or.inr (Or.inr rfl)

omit [Arith α] in
/-- A bound that was read from an array is read again from the array that states it. -/
theorem ofEntries?_toTensor {t : Tensor α} {b : UpperBound α n} (read : ofEntries? n t = some b) :
    ofEntries? n b.toTensor = some b := by
  by_cases single : t.size = 1
  · rw [ofEntries?, dif_pos single] at read
    cases read
    rfl
  · rw [ofEntries?, dif_neg single] at read
    by_cases full : t.size = n
    · rw [dif_pos full] at read
      cases read
      have size_eq : (each (t.entries.cast full) : UpperBound α n).toTensor.size = n :=
        Shape.volume_singleton n
      have several : ¬ (each (t.entries.cast full) : UpperBound α n).toTensor.size = 1 := by omega
      rw [ofEntries?, dif_neg several, dif_pos size_eq]
      rfl
    · rw [dif_neg full] at read
      cases read

end UpperBound

namespace Parts

/-- The parts of a split as they are written in arrays. -/
def stating (s : Split α n) : Parts α where
  posQ := some (Tensor.ofMat s.posQ)
  negQ := some (Tensor.ofMat s.negQ)
  posH := some (Tensor.ofVec s.posH)
  negH := some (Tensor.ofVec s.negH)

variable {bound : Option (Tensor α)}

theorem gradient?_eq (M : Mat α n n) (h c : Vec α n) :
    gradient? (some (Tensor.ofMat M)) (some (Tensor.ofVec h)) c
      = .ok (Tensor.ofVec (Vec.ofFn fun i => Vec.dot (M i) c + h i)) := by
  change ((Tensor.ofMat M).product? c >>= fun product =>
    product.combine? (· + ·) (Tensor.ofVec h)) = _
  rw [Tensor.product?_ofMat]
  refine (Tensor.combine?_vectors _ _ _).trans ?_
  simp only [Mat.apply_apply]

theorem gradientAt?_eq (M : Mat α n n) (h c : Vec α n) (i : Fin n) :
    gradientAt? (some (Tensor.ofMat M)) (some (Tensor.ofVec h)) c i
      = .ok (Tensor.scalar (Vec.dot (M i) c + h i)) := by
  change ((Tensor.ofMat M).slice? i >>= fun row => row.scaledProduct? c >>= fun product =>
    (Tensor.ofVec h).slice? i >>= fun own => product.combine? (· + ·) own) = _
  rw [Tensor.slice?_ofMat]
  change ((Tensor.ofVec (M i)).scaledProduct? c >>= fun product =>
    (Tensor.ofVec h).slice? i >>= fun own => product.combine? (· + ·) own) = _
  rw [Tensor.scaledProduct?_ofVec, Tensor.slice?_ofVec]
  exact Tensor.combine?_scalars _ _ _

theorem synchronous?_eq (s : Split α n) (epsilon : α) (fits : ∀ t ∈ bound, Fits n t)
    (x : Vec α n) :
    (stating s).synchronous? epsilon bound x = .ok (s.synchronous epsilon (reading n bound) x) := by
  cases bound with
  | none =>
    simp only [synchronous?, stating, gradient?_eq]
    simp only [bind, Except.bind, Tensor.combine?_vectors, Vec.ofFn_apply, Tensor.vectorOf?_ofVec]
    rfl
  | some t =>
    obtain ⟨b, read⟩ := (fits t rfl).exists_reading
    have bounded : reading n (some t) = some b := read
    have cut (i : Fin n) := (fits t rfl).entry_source read i
    simp only [synchronous?, stating, gradient?_eq]
    simp only [bind, Except.bind, Tensor.combine?_vectors, Vec.ofFn_apply,
      Tensor.combine?_ofVec _ _ (fits t rfl), Tensor.vectorOf?_ofVec, cut, bounded]
    rfl

/-- Without coordinates a synchronous update answers the empty vector. -/
theorem synchronous?_empty (s : Split α 0) (epsilon : α) (x : Vec α 0) :
    (stating s).synchronous? epsilon none x = .ok x := by
  have unbounded : ∀ t ∈ (none : Option (Tensor α)), Fits 0 t := fun _ given => nomatch given
  refine (synchronous?_eq s epsilon unbounded x).trans ?_
  exact congrArg Except.ok (Vec.ext_apply fun i => i.elim0)

/-- What a sweep makes of a coordinate is a single number at every place. -/
theorem ratio?_eq (s : Split α n) (x : Vec α n) (i : Fin n) :
    (stating s).ratio? x i = .ok (Tensor.scalar (x i * s.growth x i / s.decay x i)) := by
  simp only [ratio?, stating, gradientAt?_eq]
  simp only [bind, Except.bind, Tensor.slice?_ofVec, Tensor.combine?_scalars]
  rfl

theorem sweepTo?_eq (s : Split α n) (b : Option (UpperBound α n)) (c : Vec α n) (k : Nat)
    (inside : k ≤ n) : (stating s).sweepTo? b c k inside = .ok (s.sweepTo b c k inside) := by
  induction k with
  | zero => rfl
  | succ k ih =>
    have ratio := ratio?_eq s (s.sweepTo b c k (Nat.le_of_lt inside)) ⟨k, inside⟩
    rw [sweepTo?, ih]
    change ((stating s).ratio? (s.sweepTo b c k (Nat.le_of_lt inside)) k >>= fun y =>
      y.number? >>= _) = _
    rw [ratio]
    rfl

theorem sweep?_eq (s : Split α n) (epsilon : α) (positive : 1 ≤ n) (fits : ∀ t ∈ bound, Fits n t)
    (x : Vec α n) :
    (stating s).sweep? epsilon bound x = .ok (s.sweep epsilon (reading n bound) x) := by
  have nonzero : n ≠ 0 := by omega
  rw [sweep?, Schedule.optionalBound?_eq .gaussSeidel fits]
  refine (if_neg nonzero).trans ?_
  exact sweepTo?_eq s (reading n bound) _ n (Nat.le_refl n)

/-- A sweep that goes through, whatever the shape of the bound, is the one on vectors. -/
theorem sweep?_ok {s : Split α n} {epsilon : α} {x y : Vec α n}
    (swept : (stating s).sweep? epsilon bound x = .ok y) :
    1 ≤ n ∧ y = s.sweep epsilon (reading n bound) x := by
  cases taken : Schedule.gaussSeidel.optionalBound? n bound with
  | error _ =>
    rw [sweep?, taken] at swept
    cases swept
  | ok b =>
    obtain rfl := Schedule.optionalBound?_ok taken
    rw [sweep?, taken] at swept
    cases n with
    | zero => cases swept
    | succ m =>
      have whole := sweepTo?_eq s (reading (m + 1) bound) (x.floored epsilon) _ (Nat.le_refl _)
      exact ⟨Nat.succ_pos m, Except.ok.inj (swept.symm.trans whole)⟩

/-- Under either schedule the update of arrays that fit is the update of vectors. -/
theorem update?_eq (s : Split α n) (o : Schedule) (epsilon : α) (positive : 1 ≤ n)
    (fits : ∀ t ∈ bound, Fits n t) (x : Vec α n) :
    (stating s).update? o epsilon bound x = .ok (s.update o epsilon (reading n bound) x) := by
  cases o with
  | synchronous => exact synchronous?_eq s epsilon fits x
  | gaussSeidel => exact sweep?_eq s epsilon positive fits x

/-- The iterate after `k` updates of arrays, as far as each of them goes through. -/
def iterate? (p : Parts α) (o : Schedule) (epsilon : α) (bound : Option (Tensor α)) (x : Vec α n) :
    Nat → Except Fault (Vec α n)
  | 0 => .ok x
  | k + 1 => do
    let y ← p.iterate? o epsilon bound x k
    p.update? o epsilon bound y

/-- No update of a run fails, and the run is the one on vectors. -/
theorem iterate?_eq_iterate (s : Split α n) (o : Schedule) (epsilon : α) (positive : 1 ≤ n)
    (fits : ∀ t ∈ bound, Fits n t) (x : Vec α n) (k : Nat) :
    (stating s).iterate? o epsilon bound x k
      = .ok ((s.update o epsilon (reading n bound))^[k] x) := by
  induction k with
  | zero => rfl
  | succ k ih =>
    rw [iterate?, ih, Function.iterate_succ_apply']
    exact update?_eq s o epsilon positive fits _

theorem iterate?_eq (p : Problem α n) (c : Config α) (positive : 1 ≤ n)
    (fits : ∀ t ∈ bound, Fits n t) (read : reading n bound = p.bound) (k : Nat) :
    (stating (Split.build c.policy p.objective c.epsilon)).iterate? c.schedule c.epsilon bound
      p.start k = .ok ((p.iteration c).iterate p.start k) := by
  rw [iterate?_eq_iterate _ c.schedule c.epsilon positive fits, read, Iteration.iterate_eq_iterate]
  rfl

end Parts

end BoxQP
