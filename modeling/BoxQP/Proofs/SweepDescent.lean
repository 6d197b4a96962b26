import BoxQP.Proofs.ArrayUpdate
import BoxQP.Proofs.Descent
import BoxQP.Proofs.Positivity

/-!
# Descent of a sweep

A sweep changes one coordinate at a time, and the only curvature that such a change meets
is the diagonal entry of the matrix, which may have either sign. The decay at a positive
point covers this entry together with the regularisation, and the change is a step
against the slope at the point that the sweep has reached, shortened by the bound. So
each change lowers the objective by `ε` times its square. A coordinate is changed once
and from its floored value, so that these squares add up to the squared distance between
the two ends of the sweep. The main theorem is about the update of arrays, which
refuses to sweep over no coordinates.
-/

namespace BoxQP

open UpperBound

variable {n : Nat}

namespace Vec

@[simp]
theorem squaredDistance_self (c : Vec ℝ n) : c.squaredDistance c = 0 := by
  simp [squaredDistance]

/-- Changing a coordinate that has not moved yet adds the square of its change. -/
theorem squaredDistance_put {x c : Vec ℝ n} {i : Fin n} (unmoved : x i = c i) (a : ℝ) :
    (x.put i a).squaredDistance c = x.squaredDistance c + (a - c i) ^ 2 := by
  have term (j : Fin n) : (x.put i a j - c j) ^ 2
      = (x j - c j) ^ 2 + if j = i then (a - c i) ^ 2 else 0 := by
    by_cases here : j = i
    · subst here
      rw [put_apply_self, unmoved, sub_self, if_pos rfl]
      ring
    · rw [put_apply_ne _ _ _ _ (Ne.symm here), if_neg here, add_zero]
  simp only [squaredDistance, term, Finset.sum_add_distrib]
  rw [Finset.sum_ite_eq' Finset.univ i, if_pos (Finset.mem_univ i)]

end Vec

theorem UpperBound.Within.positive {bound : Option (UpperBound ℝ n)} {c : Vec ℝ n}
    (within : Within bound c) (positive : ∀ i, 0 < c i) : Positive bound :=
  fun b given i => (positive i).trans_le (within i b given)

namespace Split

variable (p : Policy) {q : Quadratic ℝ n} {ε : ℝ} {bound : Option (UpperBound ℝ n)}

/-- At a positive point the decay of a coordinate is at least its value, scaled by the
positive part of its curvature and the regularisation. -/
theorem curvature_mul_le_decay (floor : 0 < ε) {x : Vec ℝ n} (positive : ∀ j, 0 < x j) (i : Fin n) :
    (max (q.Q i i) 0 + ε) * x i ≤ (build p q ε).decay x i := by
  have own : max (q.Q i i) 0 * x i ≤ p.positivePart q.Q i i * x i :=
    mul_le_mul_of_nonneg_right (p.max_le_positivePart q.Q i i) (positive i).le
  have among : p.positivePart q.Q i i * x i ≤ ∑ j, p.positivePart q.Q i j * x j :=
    Finset.single_le_sum
      (fun j _ => mul_nonneg (p.positivePart_nonneg q.Q i j) (positive j).le) (Finset.mem_univ i)
  have rest := negH_nonneg p q i floor.le
  rw [decay_eq, add_mul]
  linarith

/-- One change of a sweep. The matrix is symmetric, but of any signature. -/
theorem value_put_coordinate_le (symmetric : q.Q.Symmetric) (floor : 0 < ε) {x : Vec ℝ n}
    (positive : ∀ j, 0 < x j) {i : Fin n} (allowed : Allows bound i (x i)) :
    let a := (build p q ε).coordinate bound x i
    q.value (x.put i a) + ε * (a - x i) ^ 2 ≤ q.value x := by
  intro a
  have shrinks : 0 < (build p q ε).decay x i := decay_pos p q i floor positive
  have between : Between (x i) a (x i - x i / (build p q ε).decay x i * q.slope x i) := by
    have capped : a = cap bound i (x i - x i / (build p q ε).decay x i * q.slope x i) := by
      rw [← ratio_eq p q i floor positive, ← coordinate_real]
    rw [capped]
    exact between_cap allowed
  have downhill := slope_mul_le (div_pos (positive i) shrinks) between
  rw [inv_div] at downhill
  have covered : max (q.Q i i) 0 + ε ≤ (build p q ε).decay x i / x i := by
    rw [le_div_iff₀ (positive i)]
    exact curvature_mul_le_decay p floor positive i
  have outweighed := mul_le_mul_of_nonneg_right covered (sq_nonneg (a - x i))
  -- Half of the curvature is at most its positive part, whichever sign it has.
  have curved := mul_le_mul_of_nonneg_right (le_max_left (q.Q i i) 0) (sq_nonneg (a - x i))
  have convex := mul_nonneg (le_max_right (q.Q i i) 0) (sq_nonneg (a - x i))
  rw [Quadratic.value_put symmetric]
  linarith

variable {c : Vec ℝ n}

/-- The change that a sweep makes at its `k`-th coordinate. -/
theorem value_sweepTo_succ (symmetric : q.Q.Symmetric) (floor : 0 < ε) (positive : ∀ j, 0 < c j)
    (within : Within bound c) {k : Nat} (inside : k < n) :
    let w := (build p q ε).sweepTo bound c
    q.value (w (k + 1) inside) + ε * (w (k + 1) inside ⟨k, inside⟩ - c ⟨k, inside⟩) ^ 2
      ≤ q.value (w k (Nat.le_of_lt inside)) := by
  intro w
  let x := w k (Nat.le_of_lt inside)
  have reached : ∀ j, 0 < x j :=
    sweepTo_pos p q floor (within.positive positive) positive k _
  have unmoved : x ⟨k, inside⟩ = c ⟨k, inside⟩ :=
    sweepTo_apply_of_le _ bound c k _ ⟨k, inside⟩ le_rfl
  have allowed : Allows bound ⟨k, inside⟩ (x ⟨k, inside⟩) := by
    rw [unmoved]
    exact within ⟨k, inside⟩
  have changed : w (k + 1) inside
      = x.put ⟨k, inside⟩ ((build p q ε).coordinate bound x ⟨k, inside⟩) :=
    sweepTo_succ _ bound c k inside
  rw [changed, Vec.put_apply_self, ← unmoved]
  exact value_put_coordinate_le p symmetric floor reached allowed

/-- The changes up to any point of a sweep, taken together. -/
theorem value_sweepTo_le (symmetric : q.Q.Symmetric) (floor : 0 < ε) (positive : ∀ j, 0 < c j)
    (within : Within bound c) (k : Nat) (inside : k ≤ n) :
    let w := (build p q ε).sweepTo bound c k inside
    q.value w + ε * w.squaredDistance c ≤ q.value c := by
  intro w
  induction k with
  | zero =>
    have start : w = c := rfl
    rw [start, Vec.squaredDistance_self, mul_zero, add_zero]
  | succ k ih =>
    let x := (build p q ε).sweepTo bound c k (Nat.le_of_lt inside)
    have before : q.value x + ε * x.squaredDistance c ≤ q.value c := ih (Nat.le_of_lt inside)
    have lower : q.value w + ε * (w ⟨k, inside⟩ - c ⟨k, inside⟩) ^ 2 ≤ q.value x :=
      value_sweepTo_succ p symmetric floor positive within inside
    have changed : w = x.put ⟨k, inside⟩ ((build p q ε).coordinate bound x ⟨k, inside⟩) :=
      sweepTo_succ _ bound c k inside
    have unmoved : x ⟨k, inside⟩ = c ⟨k, inside⟩ :=
      sweepTo_apply_of_le _ bound c k _ ⟨k, inside⟩ le_rfl
    have distance : w.squaredDistance c
        = x.squaredDistance c + (w ⟨k, inside⟩ - c ⟨k, inside⟩) ^ 2 := by
      rw [changed, Vec.put_apply_self]
      exact Vec.squaredDistance_put unmoved _
    rw [distance]
    linarith

end Split

/-- A sweep from a floored point within the bound lowers the objective by `ε` times the
squared distance that it covers, and no single change on its way raises it. It goes through
where there is a coordinate and the bound fits. The matrix need not be semidefinite. -/
theorem sweep_descends {q : Quadratic ℝ n} {ε : ℝ} {bound : Option (Tensor ℝ)} (p : Policy)
    (symmetric : q.Q.Symmetric) (floor : 0 < ε) {x : Vec ℝ n}
    (within : Within (reading n bound) (x.floored ε)) :
    let s := Split.build p q ε
    let c := x.floored ε
    let swept := (Parts.stating s).update? .gaussSeidel ε bound x
    let reached := s.sweepTo (reading n bound) c
    (1 ≤ n → (∀ t ∈ bound, Fits n t) → ∃ y, swept = .ok y) ∧
      ∀ y, swept = .ok y →
        q.value y + ε * y.squaredDistance c ≤ q.value c ∧ y = reached n le_rfl ∧
          ∀ k (inside : k < n),
            q.value (reached (k + 1) inside) ≤ q.value (reached k (Nat.le_of_lt inside)) := by
  intro s c swept reached
  have positive (i : Fin n) : 0 < c i := floor.trans_le (x.le_floored ε i)
  constructor
  · intro nonempty fits
    exact ⟨_, Parts.update?_eq s .gaussSeidel ε nonempty fits x⟩
  · intro y answered
    obtain ⟨-, rfl⟩ := Parts.sweep?_ok answered
    refine ⟨Split.value_sweepTo_le p symmetric floor positive within n le_rfl, rfl, ?_⟩
    intro k inside
    have lower := Split.value_sweepTo_succ p symmetric floor positive within inside
    have lost := mul_nonneg floor.le
      (sq_nonneg (reached (k + 1) inside ⟨k, inside⟩ - c ⟨k, inside⟩))
    linarith

/-- A symmetric matrix that is negative in one direction. -/
noncomputable def Quadratic.saddle : Quadratic ℝ 2 where
  Q := #v[#v[0, 1], #v[1, -1]]
  h := #v[1, -1]

/-- A sweep over a matrix that is not semidefinite, with one coordinate raised to the
floor and the other on its bound. -/
theorem sweep_descends_saddle :
    let x : Vec ℝ 2 := #v[-1, 2]
    let bound : Option (Tensor ℝ) := some (.ofVec #v[1, 2])
    Quadratic.saddle.Q.Symmetric ∧ ¬ Quadratic.saddle.Q.Semidefinite ∧ (0 : ℝ) < 1 / 2 ∧
      Within (reading 2 bound) (x.floored (1 / 2)) ∧
      ∀ p : Policy, ∃ y : Vec ℝ 2,
        (Parts.stating (Split.build p .saddle (1 / 2))).update? .gaussSeidel (1 / 2) bound x
            = .ok y ∧
          Quadratic.saddle.value y + 1 / 2 * y.squaredDistance (x.floored (1 / 2))
            ≤ Quadratic.saddle.value (x.floored (1 / 2)) := by
  intro x bound
  have symmetric : Quadratic.saddle.Q.Symmetric := by
    intro i j
    fin_cases i <;> fin_cases j <;> rfl
  have bent : ¬ Quadratic.saddle.Q.Semidefinite := by
    intro semidefinite
    have form := semidefinite ![0, 1]
    simp only [Mat.form, Fin.sum_univ_two] at form
    change (0 : ℝ) ≤ 0 * 0 * 0 + 0 * 1 * 1 + (1 * 1 * 0 + 1 * -1 * 1) at form
    norm_num at form
  have floor : (0 : ℝ) < 1 / 2 := by norm_num
  let limits : UpperBound ℝ 2 := .each #v[1, 2]
  have fits : ∀ t ∈ bound, Fits 2 t := fits_toTensor (b := some limits)
  have within : Within (some limits) (x.floored (1 / 2)) := by
    refine Fin.forall_fin_two.mpr ⟨(allows_some_iff _).mpr ?_, (allows_some_iff _).mpr ?_⟩
    · rw [Vec.floored_real]
      change max (-1 : ℝ) (1 / 2) ≤ 1
      norm_num
    · rw [Vec.floored_real]
      change max (2 : ℝ) (1 / 2) ≤ 2
      norm_num
  have bounded : reading 2 bound = some limits := rfl
  rw [← bounded] at within
  refine ⟨symmetric, bent, floor, within, fun p => ?_⟩
  obtain ⟨answers, descends⟩ := sweep_descends p symmetric floor within
  obtain ⟨y, swept⟩ := answers one_le_two fits
  exact ⟨y, swept, (descends y swept).1⟩

end BoxQP
