import BoxQP.Proofs.Descent

/-!
# The majorant of a fuller split

Under diagonal dominance and under absolute values the positive part of a symmetric
matrix, taken at the absolute values of a vector, is at least the form of the matrix
itself. The decays over the values then weigh a separable quadratic that touches the
objective at the floored point and lies above it everywhere. A synchronous update goes
to the minimiser of that quadratic and a bound only shortens it, so that the objective
falls for matrices of any signature. Of the simple policy this is not claimed.
-/

namespace BoxQP

open UpperBound

variable {n : Nat}

/-- The quadratic that touches the objective at `c`, with the curvatures `D` of the
coordinates in the place of the matrix. -/
noncomputable def Quadratic.majorant (q : Quadratic ℝ n) (D : Fin n → ℝ) (c y : Vec ℝ n) : ℝ :=
  q.value c + ∑ i, q.slope c i * (y i - c i) + Arith.half * ∑ i, D i * (y i - c i) ^ 2

namespace Mat

variable {Q P : Mat ℝ n n}

theorem nonnegative_real (Q : Mat ℝ n n) (i j : Fin n) : Q.nonnegative i j = max (Q i j) 0 :=
  ofFn_apply _ i j

theorem form_le_of_abs_le (above : ∀ i j, |Q i j| ≤ P i j) (z : Fin n → ℝ) :
    Q.form z ≤ P.form fun i => |z i| := by
  refine Finset.sum_le_sum fun i _ => Finset.sum_le_sum fun j _ => ?_
  calc z i * Q i j * z j ≤ |z i * Q i j * z j| := le_abs_self _
    _ = |z i| * |Q i j| * |z j| := by rw [abs_mul, abs_mul]
    _ ≤ |z i| * P i j * |z j| := by
      have scaled := mul_le_mul_of_nonneg_left (above i j) (abs_nonneg (z i))
      exact mul_le_mul_of_nonneg_right scaled (abs_nonneg (z j))

/-- The form of a matrix with `d` added along its diagonal. -/
theorem form_add_diagonal {d : Fin n → ℝ}
    (filled : ∀ i j, P i j = Q i j + if i = j then d i else 0) (z : Fin n → ℝ) :
    P.form z = Q.form z + ∑ i, d i * z i ^ 2 := by
  have row (i : Fin n) : ∑ j, z i * P i j * z j = ∑ j, z i * Q i j * z j + d i * z i ^ 2 := by
    have own : ∑ j, z i * (if i = j then d i else 0) * z j = d i * z i ^ 2 := by
      rw [Finset.sum_eq_single i]
      · rw [if_pos rfl]
        ring
      · intro j _ other
        rw [if_neg (Ne.symm other), mul_zero, zero_mul]
      · intro missing
        exact absurd (Finset.mem_univ i) missing
    simp only [filled, mul_add, add_mul, Finset.sum_add_distrib, own]
  simp only [form, row, Finset.sum_add_distrib]

/-- Against a non-negative symmetric matrix the mixed products weigh no more than the
squares with its row sums. -/
theorem neg_form_le_row_sums (nonneg : ∀ i j, 0 ≤ P i j) (symmetric : P.Symmetric)
    (z : Fin n → ℝ) : -P.form z ≤ ∑ i, (∑ j, P i j) * z i ^ 2 := by
  have pair (i j : Fin n) :
      -(2 * (z i * P i j * z j)) ≤ P i j * z i ^ 2 + P i j * z j ^ 2 := by
    have := mul_nonneg (nonneg i j) (sq_nonneg (z i + z j))
    linarith
  have swapped : ∑ i, ∑ j, P i j * z j ^ 2 = ∑ i, ∑ j, P i j * z i ^ 2 := by
    rw [Finset.sum_comm]
    refine Finset.sum_congr rfl fun i _ => Finset.sum_congr rfl fun j _ => ?_
    rw [symmetric j i]
  have doubled : -(2 * P.form z)
      ≤ ∑ i, ∑ j, P i j * z i ^ 2 + ∑ i, ∑ j, P i j * z j ^ 2 := by
    simp only [form, Finset.mul_sum, ← Finset.sum_neg_distrib, ← Finset.sum_add_distrib]
    exact Finset.sum_le_sum fun i _ => Finset.sum_le_sum fun j _ => pair i j
  simp only [Finset.sum_mul]
  linarith

end Mat

namespace Policy

variable {Q : Mat ℝ n n}

/-- The fill of the diagonal pays for the negative entries that the positive part drops. -/
theorem form_le_diagonalDominance (symmetric : Q.Symmetric) (z : Fin n → ℝ) :
    Q.form z ≤ (Policy.diagonalDominance.positivePart Q).form fun i => |z i| := by
  let N : Mat ℝ n n := Mat.ofFn fun i j => max (Q i j) 0 - Q i j
  have entry (i j : Fin n) : N i j = max (Q i j) 0 - Q i j := Mat.ofFn_apply _ i j
  have nonneg (i j : Fin n) : 0 ≤ N i j := by
    rw [entry]
    exact sub_nonneg.mpr (le_max_left _ _)
  have mirrored : N.Symmetric := fun i j => by rw [entry, entry, symmetric i j]
  have filled (i j : Fin n) : Policy.diagonalDominance.positivePart Q i j
      = Q.nonnegative i j + if i = j then ∑ k, N i k else 0 := by
    rw [positivePart_diagonalDominance, Mat.nonnegative_real]
    simp only [entry]
  have stretched := Mat.form_add_diagonal filled fun i => |z i|
  simp only [sq_abs] at stretched
  have kept : Q.nonnegative.form z ≤ Q.nonnegative.form fun i => |z i| := by
    refine Mat.form_le_of_abs_le (fun i j => ?_) z
    rw [Mat.nonnegative_real, abs_of_nonneg (le_max_right _ _)]
  have parted : Q.form z = Q.nonnegative.form z - N.form z := by
    simp only [Mat.form, ← Finset.sum_sub_distrib]
    refine Finset.sum_congr rfl fun i _ => Finset.sum_congr rfl fun j _ => ?_
    rw [entry, Mat.nonnegative_real]
    ring
  have paid := Mat.neg_form_le_row_sums nonneg mirrored z
  linarith

theorem form_le_absValue (z : Fin n → ℝ) :
    Q.form z ≤ (Policy.absValue.positivePart Q).form fun i => |z i| :=
  Mat.form_le_of_abs_le (fun i j => (positivePart_absValue Q i j).ge) z

end Policy

namespace Split

variable {p : Policy} {q : Quadratic ℝ n} {ε : ℝ} {c : Vec ℝ n}

/-- The curvature that an update at `c` works with in coordinate `i`. -/
noncomputable def curvature (s : Split ℝ n) (c : Vec ℝ n) (i : Fin n) : ℝ := s.decay c i / c i

theorem curvature_pos (floor : 0 < ε) (positive : ∀ i, 0 < c i) (i : Fin n) :
    0 < (build p q ε).curvature c i :=
  div_pos (decay_pos p q i floor positive) (positive i)

theorem form_le_curvature (fuller : p = .diagonalDominance ∨ p = .absValue)
    (symmetric : q.Q.Symmetric) (floor : 0 < ε) (positive : ∀ i, 0 < c i) (z : Fin n → ℝ) :
    q.Q.form z ≤ ∑ i, (build p q ε).curvature c i * z i ^ 2 := by
  have covered : q.Q.form z ≤ (p.positivePart q.Q).form fun i => |z i| := by
    rcases fuller with rfl | rfl
    · exact Policy.form_le_diagonalDominance symmetric z
    · exact Policy.form_le_absValue z
  have outweighed := weighted_le_decay (p := p) floor symmetric positive z
  have regular : 0 ≤ ε * ∑ i, z i ^ 2 :=
    mul_nonneg floor.le (Finset.sum_nonneg fun i _ => sq_nonneg (z i))
  simp only [curvature]
  linarith

/-- Without a bound the update balances the slope against the curvature. -/
theorem synchronous_balanced (floor : 0 < ε) (x : Vec ℝ n) (i : Fin n) :
    q.slope (x.floored ε) i + (build p q ε).curvature (x.floored ε) i
      * ((build p q ε).synchronous ε none x i - x.floored ε i) = 0 := by
  have positive (j : Fin n) : 0 < x.floored ε j := floor.trans_le (x.le_floored ε j)
  have value_ne := (positive i).ne'
  have decay_ne := (decay_pos p q i floor positive).ne'
  rw [synchronous_eq_cap p q i floor none x, cap_of_allows allows_none, curvature]
  field_simp
  ring

end Split

namespace Quadratic

variable {q : Quadratic ℝ n} {D : Fin n → ℝ} {c m : Vec ℝ n}

theorem majorant_real (y : Vec ℝ n) :
    q.majorant D c y
      = q.value c + ∑ i, q.slope c i * (y i - c i) + 1 / 2 * ∑ i, D i * (y i - c i) ^ 2 := by
  have half : (Arith.half : ℝ) = 1 / 2 := congrArg (1 / ·) one_add_one_eq_two
  rw [majorant, half]

/-- Around the point where slope and curvature balance, a majorant is its value there plus
the weighted square of the distance. -/
theorem majorant_eq_of_balanced (balanced : ∀ i, q.slope c i + D i * (m i - c i) = 0)
    (y : Vec ℝ n) :
    q.majorant D c y = q.majorant D c m + 1 / 2 * ∑ i, D i * (y i - m i) ^ 2 := by
  have term (i : Fin n) : q.slope c i * (y i - c i) + 1 / 2 * (D i * (y i - c i) ^ 2)
      = q.slope c i * (m i - c i) + 1 / 2 * (D i * (m i - c i) ^ 2)
        + 1 / 2 * (D i * (y i - m i) ^ 2) := by
    have slope_eq : q.slope c i = -(D i * (m i - c i)) := eq_neg_of_add_eq_zero_left (balanced i)
    rw [slope_eq]
    ring
  have total := Fintype.sum_congr _ _ term
  simp only [Finset.sum_add_distrib, ← Finset.mul_sum] at total
  rw [majorant_real, majorant_real]
  linarith

theorem majorant_lt_of_balanced (balanced : ∀ i, q.slope c i + D i * (m i - c i) = 0)
    (curved : ∀ i, 0 < D i) {y : Vec ℝ n} (different : y ≠ m) :
    q.majorant D c m < q.majorant D c y := by
  have apart : ∃ i, y i ≠ m i := by
    by_contra same
    push Not at same
    exact different (Vec.ext_apply same)
  obtain ⟨i, moved⟩ := apart
  have away : 0 < ∑ i, D i * (y i - m i) ^ 2 :=
    Finset.sum_pos' (fun j _ => mul_nonneg (curved j).le (sq_nonneg _))
      ⟨i, Finset.mem_univ i, mul_pos (curved i) (sq_pos_of_ne_zero (sub_ne_zero.mpr moved))⟩
  rw [majorant_eq_of_balanced balanced y]
  linarith

end Quadratic

/-- The guarantee of the two fuller policies: the curvatures of an update majorise the
objective over all vectors, the update without a bound is the only minimiser of the
majorant, and one that is cut at a bound above the floored point still descends. -/
theorem synchronous_minimises_majorant {p : Policy}
    (fuller : p = .diagonalDominance ∨ p = .absValue) {q : Quadratic ℝ n}
    (symmetric : q.Q.Symmetric) {ε : ℝ} (floor : 0 < ε) (x : Vec ℝ n) :
    let s := Split.build p q ε
    let c := x.floored ε
    let D := s.curvature c
    (∀ y, q.value y ≤ q.majorant D c y) ∧
      (∀ y, y ≠ s.synchronous ε none x →
        q.majorant D c (s.synchronous ε none x) < q.majorant D c y) ∧
      ∀ bound, Within bound c →
        let y := s.synchronous ε bound x
        q.value y + 1 / 2 * ∑ i, D i * (y i - c i) ^ 2 ≤ q.value c := by
  intro s c D
  have positive (i : Fin n) : 0 < c i := floor.trans_le (x.le_floored ε i)
  have above (y : Vec ℝ n) : q.value y ≤ q.majorant D c y := by
    have covered := Split.form_le_curvature fuller symmetric floor positive fun i => y i - c i
    rw [Quadratic.value_eq_expansion symmetric c y, Quadratic.majorant_real]
    linarith
  refine ⟨above, ?_, ?_⟩
  · intro y different
    exact Quadratic.majorant_lt_of_balanced (Split.synchronous_balanced floor x)
      (Split.curvature_pos floor positive) different
  · intro bound within y
    have between (i : Fin n) : Between (c i) (y i) (c i - c i / s.decay c i * q.slope c i) := by
      have capped := Split.synchronous_eq_cap p q i floor bound x
      exact capped ▸ between_cap (within i)
    have downhill : ∑ i, q.slope c i * (y i - c i) ≤ -∑ i, D i * (y i - c i) ^ 2 :=
      Split.slope_step_le floor positive between
    have touched := above y
    rw [Quadratic.majorant_real] at touched
    linarith

/-- The form of the matrix is the negative of a square. -/
noncomputable def Quadratic.concave : Quadratic ℝ 2 where
  Q := Mat.ofFn fun _ _ => -1
  h := Vec.ofFn fun _ => 1

/-- A concave objective, from a start below the floor in one coordinate and on the bound in
the other. -/
theorem synchronous_minimises_majorant_concave :
    let q := Quadratic.concave
    let x : Vec ℝ 2 := #v[-1, 2]
    let bound : Option (UpperBound ℝ 2) := some (.each #v[1, 2])
    q.Q.Symmetric ∧ ¬ q.Q.Semidefinite ∧ (0 : ℝ) < 1 / 2 ∧ Within bound (x.floored (1 / 2)) ∧
      ∀ p, p = .diagonalDominance ∨ p = .absValue →
        let s := Split.build p q (1 / 2)
        let c := x.floored (1 / 2)
        let y := s.synchronous (1 / 2) bound x
        q.value y + 1 / 2 * ∑ i, s.curvature c i * (y i - c i) ^ 2 ≤ q.value c := by
  intro q x bound
  have entry (i j : Fin 2) : q.Q i j = -1 := Mat.ofFn_apply _ i j
  have symmetric : q.Q.Symmetric := fun i j => (entry i j).trans (entry j i).symm
  have bent : ¬ q.Q.Semidefinite := by
    intro semidefinite
    have form := semidefinite ![1, 0]
    simp only [Mat.form, Fin.sum_univ_two, entry] at form
    norm_num at form
  have floor : (0 : ℝ) < 1 / 2 := by norm_num
  have within : Within bound (x.floored (1 / 2)) := by
    refine Fin.forall_fin_two.mpr ⟨(allows_some_iff _).mpr ?_, (allows_some_iff _).mpr ?_⟩
    · rw [Vec.floored_real]
      change max (-1 : ℝ) (1 / 2) ≤ 1
      norm_num
    · rw [Vec.floored_real]
      change max (2 : ℝ) (1 / 2) ≤ 2
      norm_num
  refine ⟨symmetric, bent, floor, within, fun p fuller => ?_⟩
  exact (synchronous_minimises_majorant fuller symmetric floor x).2.2 bound within

end BoxQP
