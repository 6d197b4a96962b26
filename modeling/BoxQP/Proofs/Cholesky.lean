import BoxQP.Cholesky
import BoxQP.Proofs.Optimality

/-!
# Exact solves by a Cholesky factor

Over the reals a symmetric definite matrix has a factor, and the two triangular solves by
it answer the system. Both follow the border of the matrix: what remains after the first
row is taken off is symmetric and definite again, because the form of the whole matrix is
its form and a square that one more entry of the vector can make zero.
-/

namespace BoxQP

variable {n : Nat}

namespace Factor

/-- The first row of a matrix is the scaled row of its factor, times a positive pivot. -/
structure Borders (H : Mat ℝ (n + 1) (n + 1)) (pivot : ℝ) (row : Vec ℝ n) : Prop where
  pivot_pos : 0 < pivot
  corner_eq : H 0 0 = pivot * pivot
  row_eq : ∀ j, H 0 j.succ = pivot * row j

variable {H : Mat ℝ (n + 1) (n + 1)} {pivot : ℝ} {row : Vec ℝ n}

theorem remainder_apply (i j : Fin n) :
    remainder H row i j = H i.succ j.succ - row i * row j :=
  Mat.ofFn_apply _ i j

theorem remainder_symmetric (symmetric : H.Symmetric) : (remainder H row).Symmetric := by
  intro i j
  rw [remainder_apply, remainder_apply, symmetric i.succ j.succ, mul_comm]

/-- The square that the border completes: what is left of the form is that of the remainder. -/
theorem Borders.form_cons (borders : Borders H pivot row) (symmetric : H.Symmetric) (t : ℝ)
    (v : Fin n → ℝ) :
    H.form (Fin.cons t v) = (pivot * t + ∑ j, row j * v j) ^ 2 + (remainder H row).form v := by
  have column (i : Fin n) : H i.succ 0 = pivot * row i := (symmetric _ _).trans (borders.row_eq i)
  have edge : ∑ j, t * (pivot * row j) * v j = pivot * t * ∑ j, row j * v j := by
    rw [Finset.mul_sum]
    refine Finset.sum_congr rfl fun j _ => ?_
    ring
  have side : ∑ i, v i * (pivot * row i) * t = pivot * t * ∑ j, row j * v j := by
    rw [← edge]
    refine Finset.sum_congr rfl fun i _ => ?_
    ring
  have square : ∑ i, ∑ j, v i * (row i * row j) * v j = (∑ j, row j * v j) ^ 2 := by
    rw [sq, Finset.sum_mul_sum]
    refine Finset.sum_congr rfl fun i _ => Finset.sum_congr rfl fun j _ => ?_
    ring
  have inner : (remainder H row).form v
      = ∑ i, ∑ j, v i * H i.succ j.succ * v j - (∑ j, row j * v j) ^ 2 := by
    rw [← square]
    simp only [Mat.form, remainder_apply, mul_sub, sub_mul, Finset.sum_sub_distrib]
  calc H.form (Fin.cons t v)
      = t * (pivot * pivot) * t + ∑ i, v i * (pivot * row i) * t
          + (∑ j, t * (pivot * row j) * v j + ∑ i, ∑ j, v i * H i.succ j.succ * v j) := by
        simp only [Mat.form, Fin.sum_univ_succ, Fin.cons_zero, Fin.cons_succ, borders.corner_eq,
          borders.row_eq, column, Finset.sum_add_distrib]
    _ = (pivot * t + ∑ j, row j * v j) ^ 2 + (remainder H row).form v := by
        rw [edge, side, inner]
        ring

theorem Borders.remainder_definite (borders : Borders H pivot row) (symmetric : H.Symmetric)
    (definite : H.Definite) : (remainder H row).Definite := by
  intro v nonzero
  -- Continued by this entry, the vector leaves the square empty.
  have form_eq := borders.form_cons symmetric (-(∑ j, row j * v j) / pivot) v
  rw [mul_div_cancel₀ _ borders.pivot_pos.ne', neg_add_cancel, sq, zero_mul, zero_add] at form_eq
  rw [← form_eq]
  refine definite _ fun zero => nonzero (funext fun i => ?_)
  exact congrFun zero i.succ

/-- An exact answer for what remains is continued to an exact answer for the matrix. -/
theorem Borders.apply_withFirst (borders : Borders H pivot row) (symmetric : H.Symmetric)
    {b : Vec ℝ (n + 1)} {y : ℝ} {z : Vec ℝ n} (first : pivot * y = b 0)
    (rest : ∀ i, (remainder H row).apply z i = b i.succ - y * row i) :
    H.apply (Vec.withFirst ((y - Vec.dot row z) / pivot) z) = b := by
  have nonzero := borders.pivot_pos.ne'
  have head : Vec.withFirst ((y - Vec.dot row z) / pivot) z 0 = (y - Vec.dot row z) / pivot :=
    Vec.first_withFirst _ _
  have back : pivot * ((y - Vec.dot row z) / pivot) = y - Vec.dot row z :=
    mul_div_cancel₀ _ nonzero
  refine Vec.ext_apply fun i => ?_
  rw [Mat.apply_real, Fin.sum_univ_succ, head]
  simp only [Vec.withFirst_apply_succ]
  cases i using Fin.cases with
  | zero =>
    have pulled : ∑ j, H 0 j.succ * z j = pivot * Vec.dot row z := by
      simp only [borders.row_eq, Vec.dot_real, Finset.mul_sum, mul_assoc]
    rw [pulled, borders.corner_eq, mul_assoc, back, ← first]
    ring
  | succ i =>
    have column : H i.succ 0 = row i * pivot := by
      rw [symmetric i.succ 0, borders.row_eq, mul_comm]
    have remaining : ∑ j, H i.succ j.succ * z j = b i.succ - y * row i + row i * Vec.dot row z := by
      rw [← rest, Mat.apply_real, Vec.dot_real, Finset.mul_sum, ← Finset.sum_add_distrib]
      refine Finset.sum_congr rfl fun j _ => ?_
      rw [remainder_apply]
      ring
    rw [remaining, column, mul_assoc, back]
    ring

/-- The pivot of a definite matrix is the root of its corner, and borders it. -/
theorem borders_of_definite (definite : H.Definite) :
    Borders H (Real.sqrt (H 0 0)) (Vec.ofFn fun j => H 0 j.succ / Real.sqrt (H 0 0)) where
  pivot_pos := Real.sqrt_pos.mpr (definite.diagonal_pos 0)
  corner_eq := (Real.mul_self_sqrt (definite.diagonal_pos 0).le).symm
  row_eq := by
    intro j
    rw [Vec.ofFn_apply, mul_div_cancel₀ _ (Real.sqrt_pos.mpr (definite.diagonal_pos 0)).ne']

theorem exists_ofMat? (H : Mat ℝ n n) (symmetric : H.Symmetric) (definite : H.Definite) :
    ∃ F, ofMat? n H = some F ∧ ∀ b, H.apply (F.solve b) = b := by
  induction n with
  | zero => exact ⟨.empty, rfl, fun _ => Vec.ext_apply fun i => i.elim0⟩
  | succ n ih =>
    have borders := borders_of_definite definite
    obtain ⟨rest, built, exact⟩ :=
      ih _ (remainder_symmetric symmetric) (borders.remainder_definite symmetric definite)
    have corner : Arith.lt 0 (Vec.first (Vec.first H)) = true :=
      decide_eq_true (definite.diagonal_pos 0)
    refine ⟨.border (Real.sqrt (H 0 0)) (Vec.ofFn fun j => H 0 j.succ / Real.sqrt (H 0 0)) rest, ?_,
      fun b => ?_⟩
    · refine (if_pos corner).trans ?_
      exact congrArg (Option.map _) built
    · refine borders.apply_withFirst symmetric ?_ fun i => ?_
      · exact mul_div_cancel₀ _ borders.pivot_pos.ne'
      · rw [exact, Vec.ofFn_apply]

/-- The solves by the factor of a symmetric definite matrix are exact. -/
theorem apply_solve {H : Mat ℝ n n} (symmetric : H.Symmetric) (definite : H.Definite)
    (b : Vec ℝ n) : H.apply ((ofMat H).solve b) = b := by
  obtain ⟨F, built, exact⟩ := exists_ofMat? H symmetric definite
  rw [ofMat, built]
  exact exact b

end Factor

end BoxQP
