import BoxQP.Proofs.Box
import Mathlib.Algebra.Order.BigOperators.Ring.Finset
import Mathlib.Order.Filter.Extr
import Mathlib.Tactic.FinCases

/-!
# Minimisers over a box

A symmetric objective is its first-order expansion plus half the quadratic form of the
step. Over a box a point is stationary when no coordinate can be moved inside the box
against its slope. For a semidefinite matrix the stationary points are exactly the
minimisers, and a definite one has at most one of them.
-/

namespace BoxQP

variable {n : Nat}

namespace Mat

variable {Q : Mat ℝ n n}

/-- The form of a sum; symmetry joins the two mixed terms. -/
theorem form_add (symmetric : Q.Symmetric) (x z : Fin n → ℝ) :
    Q.form (fun i => x i + z i)
      = Q.form x + 2 * ∑ i, (∑ j, Q i j * x j) * z i + Q.form z := by
  have left : ∑ i, ∑ j, z i * Q i j * x j = ∑ i, (∑ j, Q i j * x j) * z i := by
    refine Finset.sum_congr rfl fun i _ => ?_
    rw [Finset.sum_mul]
    refine Finset.sum_congr rfl fun j _ => ?_
    ring
  have right : ∑ i, ∑ j, x i * Q i j * z j = ∑ i, ∑ j, z i * Q i j * x j := by
    rw [Finset.sum_comm]
    refine Finset.sum_congr rfl fun i _ => Finset.sum_congr rfl fun j _ => ?_
    rw [symmetric j i]
    ring
  calc Q.form (fun i => x i + z i)
      = ∑ i, ∑ j, (x i * Q i j * x j + z i * Q i j * x j
          + x i * Q i j * z j + z i * Q i j * z j) := by
        refine Finset.sum_congr rfl fun i _ => Finset.sum_congr rfl fun j _ => ?_
        ring
    _ = Q.form x + ∑ i, ∑ j, z i * Q i j * x j + ∑ i, ∑ j, x i * Q i j * z j + Q.form z := by
        simp only [form, Finset.sum_add_distrib]
    _ = Q.form x + 2 * ∑ i, (∑ j, Q i j * x j) * z i + Q.form z := by
        rw [right, left]
        ring

/-- The form of a vector with one entry. -/
theorem form_single (i : Fin n) (a : ℝ) :
    Q.form (fun j => if j = i then a else 0) = Q i i * a ^ 2 := by
  have row (j : Fin n) : ∑ k, (if j = i then a else 0) * Q j k * (if k = i then a else 0)
      = (if j = i then a else 0) * Q j i * a := by
    rw [Finset.sum_eq_single i]
    · rw [if_pos rfl]
    · intro k _ other
      rw [if_neg other, mul_zero]
    · intro missing
      exact absurd (Finset.mem_univ i) missing
  rw [form, Finset.sum_congr rfl fun j _ => row j, Finset.sum_eq_single i]
  · rw [if_pos rfl]
    ring
  · intro j _ other
    rw [if_neg other, zero_mul, zero_mul]
  · intro missing
    exact absurd (Finset.mem_univ i) missing

theorem Definite.diagonal_pos (definite : Q.Definite) (i : Fin n) : 0 < Q i i := by
  have unit : (fun j => if j = i then (1 : ℝ) else 0) ≠ 0 := by
    intro zero
    have entry := congrFun zero i
    rw [if_pos rfl] at entry
    exact one_ne_zero entry
  have positive := definite _ unit
  rwa [form_single, one_pow, mul_one] at positive

end Mat

/-- A step between different points is not zero. -/
theorem Vec.step_ne_zero {x y : Vec ℝ n} (different : x ≠ y) : (fun i => y i - x i) ≠ 0 := by
  intro zero
  exact different (Vec.ext_apply fun i => (sub_eq_zero.mp (congrFun zero i)).symm)

namespace Quadratic

variable {q : Quadratic ℝ n}

/-- The objective around `x`, with its slope there. -/
theorem value_eq_expansion (symmetric : q.Q.Symmetric) (x y : Vec ℝ n) :
    q.value y = q.value x + ∑ i, q.slope x i * (y i - x i)
      + 1 / 2 * q.Q.form (fun i => y i - x i) := by
  have form_eq : q.Q.form y
      = q.Q.form x + 2 * ∑ i, (∑ j, q.Q i j * x j) * (y i - x i)
        + q.Q.form (fun i => y i - x i) := by
    rw [← Mat.form_add symmetric]
    exact congrArg q.Q.form (funext fun i => (add_sub_cancel (x i) (y i)).symm)
  have slope_eq : ∑ i, q.slope x i * (y i - x i)
      = ∑ i, (∑ j, q.Q i j * x j) * (y i - x i) - (∑ i, q.h i * y i - ∑ i, q.h i * x i) := by
    rw [← Finset.sum_sub_distrib, ← Finset.sum_sub_distrib]
    refine Finset.sum_congr rfl fun i _ => ?_
    rw [slope_real]
    ring
  rw [value_real, value_real, form_eq, slope_eq]
  ring

/-- The objective after one coordinate has been changed. -/
theorem value_put (symmetric : q.Q.Symmetric) (x : Vec ℝ n) (i : Fin n) (a : ℝ) :
    q.value (x.put i a)
      = q.value x + q.slope x i * (a - x i) + 1 / 2 * (q.Q i i * (a - x i) ^ 2) := by
  have moved : (fun j => x.put i a j - x j) = fun j => if j = i then a - x i else 0 := by
    funext j
    by_cases here : j = i
    · subst here
      rw [Vec.put_apply_self, if_pos rfl]
    · rw [Vec.put_apply_ne _ _ _ _ (Ne.symm here), if_neg here, sub_self]
  have slope_eq : ∑ j, q.slope x j * (x.put i a j - x j) = q.slope x i * (a - x i) := by
    have term (j : Fin n) : x.put i a j - x j = if j = i then a - x i else 0 := congrFun moved j
    simp only [term, mul_ite, mul_zero]
    rw [Finset.sum_ite_eq' Finset.univ i, if_pos (Finset.mem_univ i)]
  rw [value_eq_expansion symmetric x, slope_eq, moved, Mat.form_single]

/-- No coordinate can be moved inside the box against its slope. -/
def Stationary (q : Quadratic ℝ n) (ε : ℝ) (bound : Option (UpperBound ℝ n)) (x : Vec ℝ n) : Prop :=
  ∀ i a, ε ≤ a → UpperBound.Allows bound i a → 0 ≤ q.slope x i * (a - x i)

variable {ε : ℝ} {bound : Option (UpperBound ℝ n)} {x y : Vec ℝ n}

/-- From a stationary point the objective grows by at least half the form of the step. -/
theorem Stationary.add_form_le (stationary : q.Stationary ε bound x) (symmetric : q.Q.Symmetric)
    (inside : y ∈ box ε bound) :
    q.value x + 1 / 2 * q.Q.form (fun i => y i - x i) ≤ q.value y := by
  have uphill : 0 ≤ ∑ i, q.slope x i * (y i - x i) :=
    Finset.sum_nonneg fun i _ => stationary i (y i) (inside i).1 (inside i).2
  rw [value_eq_expansion symmetric x y]
  linarith

theorem Stationary.isMinOn (stationary : q.Stationary ε bound x) (symmetric : q.Q.Symmetric)
    (semidefinite : q.Q.Semidefinite) : IsMinOn q.value (box ε bound) x := by
  refine isMinOn_iff.mpr fun y inside => ?_
  have grows := stationary.add_form_le symmetric inside
  have curved := semidefinite (fun i => y i - x i)
  linarith

/-- A parabola through zero that is not negative on the way to one does not fall at zero. -/
theorem nonneg_of_parabola {a b : ℝ} (above : ∀ t, 0 < t → t ≤ 1 → 0 ≤ a * t + b * t ^ 2) :
    0 ≤ a := by
  by_contra falling
  have down : 0 < -a := by linarith
  have width : 0 < |b| + -a := by linarith [abs_nonneg b]
  -- At this `t` the linear term outweighs the quadratic one.
  have t_pos : 0 < -a / (|b| + -a) := div_pos down width
  have t_le : -a / (|b| + -a) ≤ 1 := by
    rw [div_le_one width]
    linarith [abs_nonneg b]
  have weight : -a / (|b| + -a) * (|b| + -a) = -a := div_mul_cancel₀ _ width.ne'
  generalize -a / (|b| + -a) = t at t_pos t_le weight
  have slope_neg : a + b * t < 0 := by
    have : b * t ≤ |b| * t := mul_le_mul_of_nonneg_right (le_abs_self b) t_pos.le
    have : 0 < t * -a := mul_pos t_pos down
    linarith
  have := above t t_pos t_le
  have : (a + b * t) * t < 0 := mul_neg_of_neg_of_pos slope_neg t_pos
  linarith

theorem mem_box_put (inside : x ∈ box ε bound) {i : Fin n} {a : ℝ} (above : ε ≤ a)
    (allowed : UpperBound.Allows bound i a) : x.put i a ∈ box ε bound := by
  intro j
  by_cases here : i = j
  · subst here
    rw [Vec.put_apply_self]
    exact ⟨above, allowed⟩
  · rw [Vec.put_apply_ne _ _ _ _ here]
    exact inside j

theorem stationary_of_isMinOn (symmetric : q.Q.Symmetric) (inside : x ∈ box ε bound)
    (least : IsMinOn q.value (box ε bound) x) : q.Stationary ε bound x := by
  intro i a above allowed
  refine nonneg_of_parabola (b := 1 / 2 * (q.Q i i * (a - x i) ^ 2)) fun t positive small => ?_
  have target_above : ε ≤ x i + t * (a - x i) := by
    have := mul_le_mul_of_nonneg_left (inside i).1 (sub_nonneg.mpr small)
    have := mul_le_mul_of_nonneg_left above positive.le
    linarith
  have target_allowed : UpperBound.Allows bound i (x i + t * (a - x i)) := by
    intro b given
    have := mul_le_mul_of_nonneg_left ((inside i).2 b given) (sub_nonneg.mpr small)
    have := mul_le_mul_of_nonneg_left (allowed b given) positive.le
    linarith
  have lower := isMinOn_iff.mp least _ (mem_box_put inside target_above target_allowed)
  rw [value_put symmetric, add_sub_cancel_left] at lower
  linarith

/-- Over a box, a point inside minimises a convex objective exactly if it is stationary. -/
theorem stationary_iff_isMinOn (symmetric : q.Q.Symmetric) (semidefinite : q.Q.Semidefinite)
    (inside : x ∈ box ε bound) :
    q.Stationary ε bound x ↔ IsMinOn q.value (box ε bound) x :=
  ⟨fun stationary => stationary.isMinOn symmetric semidefinite,
    stationary_of_isMinOn symmetric inside⟩

/-- A strictly convex objective has no two minimisers over a box. -/
theorem isMinOn_unique (symmetric : q.Q.Symmetric) (definite : q.Q.Definite)
    (inside_x : x ∈ box ε bound) (inside_y : y ∈ box ε bound)
    (least_x : IsMinOn q.value (box ε bound) x) (least_y : IsMinOn q.value (box ε bound) y) :
    x = y := by
  have grows := (stationary_of_isMinOn symmetric inside_x least_x).add_form_le symmetric inside_y
  have level := isMinOn_iff.mp least_y x inside_x
  by_contra different
  have := definite _ (Vec.step_ne_zero different)
  linarith

/-- Two coordinates that raise each other, with `a` on top of the square of their
difference. -/
def coupled (a : ℝ) : Quadratic ℝ 2 where
  Q := #v[#v[1 + a, -1], #v[-1, 1 + a]]
  h := #v[1, 0]

theorem coupled_symmetric (a : ℝ) : (coupled a).Q.Symmetric := by
  intro i j
  fin_cases i <;> fin_cases j <;> rfl

theorem coupled_form (a : ℝ) (v : Fin 2 → ℝ) :
    (coupled a).Q.form v = (v 0 - v 1) ^ 2 + a * (v 0 ^ 2 + v 1 ^ 2) := by
  simp only [Mat.form, Fin.sum_univ_two]
  change v 0 * (1 + a) * v 0 + v 0 * -1 * v 1 + (v 1 * -1 * v 0 + v 1 * (1 + a) * v 1) = _
  ring

theorem coupled_slope (a : ℝ) (x : Vec ℝ 2) (i : Fin 2) :
    (coupled a).slope x i = ![(1 + a) * x 0 - x 1 - 1, (1 + a) * x 1 - x 0] i := by
  rw [slope_real, Fin.sum_univ_two]
  fin_cases i
  · change (1 + a) * x 0 + -1 * x 1 - 1 = (1 + a) * x 0 - x 1 - 1
    ring
  · change -1 * x 0 + (1 + a) * x 1 - 0 = (1 + a) * x 1 - x 0
    ring

theorem coupled_stationary_iff {a ε : ℝ} {bound : Option (UpperBound ℝ 2)} {x y : ℝ} :
    (coupled a).Stationary ε bound #v[x, y]
      ↔ (∀ z, ε ≤ z → UpperBound.Allows bound 0 z → 0 ≤ ((1 + a) * x - y - 1) * (z - x)) ∧
        ∀ z, ε ≤ z → UpperBound.Allows bound 1 z → 0 ≤ ((1 + a) * y - x) * (z - y) := by
  refine Fin.forall_fin_two.trans ?_
  simp only [coupled_slope]
  exact Iff.rfl

theorem coupled_semidefinite : (coupled 0).Q.Semidefinite := by
  intro v
  rw [coupled_form, zero_mul, add_zero]
  exact sq_nonneg _

theorem sum_sq_pos {v : Fin 2 → ℝ} (nonzero : v ≠ 0) : 0 < v 0 ^ 2 + v 1 ^ 2 := by
  by_contra short
  have squares := And.intro (sq_nonneg (v 0)) (sq_nonneg (v 1))
  have first : v 0 = 0 := (pow_eq_zero_iff two_ne_zero).mp (by linarith)
  have second : v 1 = 0 := (pow_eq_zero_iff two_ne_zero).mp (by linarith)
  exact nonzero (funext (Fin.forall_fin_two.mpr ⟨first, second⟩))

theorem coupled_definite {a : ℝ} (positive : 0 < a) : (coupled a).Q.Definite := by
  intro v nonzero
  rw [coupled_form]
  have := mul_pos positive (sum_sq_pos nonzero)
  linarith [sq_nonneg (v 0 - v 1)]

end Quadratic

end BoxQP
