import BoxQP.Proofs.Box
import Mathlib.Algebra.Order.BigOperators.Ring.Finset
import Mathlib.Tactic.FieldSimp

/-!
# Signs of a split

Whatever the policy, the positive part of a matrix lies above the matrix and above zero,
so that the growth and the decay of a coordinate have non-negative coefficients. Their
difference is the slope, and the regularisation keeps the decay away from zero at a
positive point. One update is therefore a step against the slope, on a scale of its own
in each coordinate, that is cut at the bound.
-/

namespace BoxQP

variable {n : Nat}

namespace Policy

variable (p : Policy) (Q : Mat ℝ n n) (i j : Fin n)

theorem max_le_positivePart : max (Q i j) 0 ≤ p.positivePart Q i j := by
  cases p with
  | simple => rw [positivePart_simple]
  | absValue =>
    rw [positivePart_absValue]
    exact max_le (le_abs_self _) (abs_nonneg _)
  | diagonalDominance =>
    rw [positivePart_diagonalDominance]
    have fill_nonneg : 0 ≤ ∑ k, (max (Q i k) 0 - Q i k) :=
      Finset.sum_nonneg fun k _ => sub_nonneg.mpr (le_max_left _ _)
    split
    · linarith
    · linarith

theorem positivePart_nonneg : 0 ≤ p.positivePart Q i j :=
  (le_max_right _ _).trans (p.max_le_positivePart Q i j)

theorem le_positivePart : Q i j ≤ p.positivePart Q i j :=
  (le_max_left _ _).trans (p.max_le_positivePart Q i j)

variable {Q}

theorem positivePart_symmetric (symmetric : Q.Symmetric) : (p.positivePart Q).Symmetric := by
  intro i j
  cases p with
  | simple => rw [positivePart_simple, positivePart_simple, symmetric i j]
  | absValue => rw [positivePart_absValue, positivePart_absValue, symmetric i j]
  | diagonalDominance =>
    rw [positivePart_diagonalDominance, positivePart_diagonalDominance, symmetric i j]
    by_cases same : i = j
    · subst same
      rfl
    · rw [if_neg same, if_neg (Ne.symm same)]

end Policy

namespace Split

variable (p : Policy) (q : Quadratic ℝ n) {ε : ℝ} (x : Vec ℝ n) (i j : Fin n)

theorem positivePart_le_posQ (floor : 0 ≤ ε) :
    p.positivePart q.Q i j ≤ (build p q ε).posQ i j := by
  rw [posQ_real]
  split
  · exact le_add_of_nonneg_right floor
  · exact (add_zero _).ge

theorem posQ_nonneg (floor : 0 ≤ ε) : 0 ≤ (build p q ε).posQ i j :=
  (p.positivePart_nonneg q.Q i j).trans (positivePart_le_posQ p q i j floor)

theorem negQ_nonneg (floor : 0 ≤ ε) : 0 ≤ (build p q ε).negQ i j := by
  rw [negQ_real, sub_nonneg]
  exact (p.le_positivePart q.Q i j).trans (positivePart_le_posQ p q i j floor)

theorem posH_nonneg (floor : 0 ≤ ε) : 0 ≤ (build p q ε).posH i := by
  rw [posH_real]
  exact mul_nonneg (le_max_right _ _) (add_nonneg zero_le_one floor)

theorem negH_nonneg (floor : 0 ≤ ε) : 0 ≤ (build p q ε).negH i := by
  rw [negH_real, posH_real]
  have above : q.h i ≤ max (q.h i) 0 := le_max_left _ _
  have stretched : 0 ≤ max (q.h i) 0 * ε := mul_nonneg (le_max_right _ _) floor
  linarith

theorem decay_sub_growth : (build p q ε).decay x i - (build p q ε).growth x i = q.slope x i := by
  have difference : ∑ j, (build p q ε).negQ i j * x j
      = ∑ j, (build p q ε).posQ i j * x j - ∑ j, q.Q i j * x j := by
    simp only [negQ_real, sub_mul, Finset.sum_sub_distrib]
  rw [decay_real, growth_real, Quadratic.slope_real, difference, negH_real]
  ring

/-- The decay with its regularisation set apart. -/
theorem decay_eq :
    (build p q ε).decay x i
      = ∑ j, p.positivePart q.Q i j * x j + ε * x i + (build p q ε).negH i := by
  have regularised : ∑ j, (build p q ε).posQ i j * x j
      = ∑ j, p.positivePart q.Q i j * x j + ε * x i := by
    simp only [posQ_real, add_mul, Finset.sum_add_distrib, ite_mul, zero_mul]
    rw [Finset.sum_ite_eq Finset.univ i, if_pos (Finset.mem_univ i)]
  rw [decay_real, regularised]

variable {x}

theorem decay_pos (floor : 0 < ε) (positive : ∀ j, 0 < x j) : 0 < (build p q ε).decay x i := by
  rw [decay_eq]
  have products : 0 ≤ ∑ j, p.positivePart q.Q i j * x j :=
    Finset.sum_nonneg fun j _ => mul_nonneg (p.positivePart_nonneg q.Q i j) (positive j).le
  have regular : 0 < ε * x i := mul_pos floor (positive i)
  have rest := negH_nonneg p q i floor.le
  linarith

/-- Before it is cut, a coordinate moves against its slope, scaled by its value over its
decay. -/
theorem ratio_eq (floor : 0 < ε) (positive : ∀ j, 0 < x j) :
    x i * (build p q ε).growth x i / (build p q ε).decay x i
      = x i - x i / (build p q ε).decay x i * q.slope x i := by
  have nonzero := (decay_pos p q i floor positive).ne'
  rw [← decay_sub_growth p q x i]
  field_simp
  ring

/-- What one synchronous update does to a coordinate of the floored point. -/
theorem synchronous_eq_cap (floor : 0 < ε) (bound : Option (UpperBound ℝ n)) (y : Vec ℝ n) :
    (build p q ε).synchronous ε bound y i
      = UpperBound.cap bound i (y.floored ε i
          - y.floored ε i / (build p q ε).decay (y.floored ε) i * q.slope (y.floored ε) i) := by
  have positive (j : Fin n) : 0 < y.floored ε j := floor.trans_le (y.le_floored ε j)
  rw [synchronous_apply, coordinate_real, ratio_eq p q i floor positive]

end Split

end BoxQP
