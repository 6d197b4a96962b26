import BoxQP.Proofs.BoundedRun
import BoxQP.Proofs.Reals

/-!
# The residual of a point

The residual is the largest of its terms, so that it bounds the product of each coordinate
with the size of its slope, and their sum by the number of coordinates. Where a run
converges, the residual of its answer is below the tolerance.
-/

namespace BoxQP

variable {n : Nat}

theorem le_foldl_max (f : Fin n → ℝ) (a : ℝ) :
    a ≤ Fin.foldl n (fun acc i => max acc (f i)) a ∧
      ∀ i, f i ≤ Fin.foldl n (fun acc i => max acc (f i)) a := by
  induction n with
  | zero => exact ⟨(Fin.foldl_zero _ a).ge, fun i => i.elim0⟩
  | succ n ih =>
    obtain ⟨first, others⟩ := ih fun i => f i.castSucc
    rw [Fin.foldl_succ_last]
    refine ⟨first.trans (le_max_left _ _), fun i => ?_⟩
    cases i using Fin.lastCases with
    | last => exact le_max_right _ _
    | cast i => exact (others i).trans (le_max_left _ _)

theorem Vec.le_largest (v : Vec ℝ n) (i : Fin n) : v i ≤ v.largest := by
  cases n with
  | zero => exact i.elim0
  | succ n =>
    obtain ⟨first, others⟩ := le_foldl_max (fun j : Fin n => v j.succ) v.first
    cases i using Fin.cases with
    | zero => exact first
    | succ i => exact others i

theorem foldl_max_lt_iff (f : Fin n → ℝ) (a t : ℝ) :
    Fin.foldl n (fun acc i => max acc (f i)) a < t ↔ a < t ∧ ∀ i, f i < t := by
  induction n with
  | zero =>
    rw [Fin.foldl_zero]
    exact (and_iff_left fun i => i.elim0).symm
  | succ n ih => rw [Fin.foldl_succ_last, max_lt_iff, ih, Fin.forall_fin_succ', and_assoc]

theorem Vec.largest_lt_iff (v : Vec ℝ (n + 1)) (t : ℝ) : v.largest < t ↔ ∀ i, v i < t := by
  rw [Fin.forall_fin_succ]
  exact foldl_max_lt_iff (fun i => v i.succ) v.first t

namespace Quadratic

theorem residual_lt_iff {q : Quadratic ℝ (n + 1)} {x : Vec ℝ (n + 1)} {t : ℝ} :
    q.residual x < t ↔ ∀ i, x i * |q.slope x i| < t := by
  rw [residual, Vec.largest_lt_iff]
  simp only [complementarity_apply]
  rfl

variable {q : Quadratic ℝ n} {x : Vec ℝ n}

theorem mul_abs_slope_le_residual (i : Fin n) : x i * |q.slope x i| ≤ q.residual x := by
  have below := Vec.le_largest (q.complementarity x) i
  rwa [complementarity_apply] at below

theorem mul_slope_le_residual (nonneg : ∀ i, 0 ≤ x i) (i : Fin n) :
    x i * q.slope x i ≤ q.residual x :=
  (mul_le_mul_of_nonneg_left (le_abs_self _) (nonneg i)).trans (mul_abs_slope_le_residual i)

theorem sum_mul_slope_le (nonneg : ∀ i, 0 ≤ x i) :
    ∑ i, x i * q.slope x i ≤ n * q.residual x := by
  have bound := Finset.sum_le_card_nsmul Finset.univ (fun i => x i * q.slope x i) (q.residual x)
    fun i _ => mul_slope_le_residual nonneg i
  rwa [Finset.card_univ, Fintype.card_fin, nsmul_eq_mul] at bound

/-- A point without a slope has no residual. -/
theorem residual_eq_zero (flat : ∀ i, q.slope x i = 0) : q.residual x = 0 := by
  cases n with
  | zero => rfl
  | succ n =>
    have term (i : Fin (n + 1)) : x i * |q.slope x i| = 0 := by rw [flat i, abs_zero, mul_zero]
    refine le_antisymm (le_of_forall_gt fun t positive => ?_) ?_
    · exact residual_lt_iff.mpr fun i => (term i).trans_lt positive
    · exact (term 0).ge.trans (mul_abs_slope_le_residual 0)

end Quadratic

namespace Problem

theorem solve_residual_lt (p : Problem ℝ n) (c : Config ℝ) (tracked : Bool)
    (converged : (p.solve c tracked).verdict = .converged) :
    (p.solve c tracked).residual < c.tolerance n := by
  obtain ⟨-, -, -, small⟩ := solve_steps_mem_passing converged
  rw [← p.solve_x_eq_iterate c tracked] at small
  exact of_decide_eq_true small

end Problem

end BoxQP
