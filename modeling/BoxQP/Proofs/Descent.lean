import BoxQP.Proofs.Optimality
import BoxQP.Proofs.SplitSigns
import Mathlib.Algebra.BigOperators.Field
import Mathlib.Logic.Function.Iterate

/-!
# Descent of the synchronous iteration

Every step from a floored iterate, cut at the bound or floored again, lowers a convex
objective by at least `ε` times the squared length of the step. The decay of a
coordinate over its value majorises the positive part of the matrix, and the positive
part majorises half of the matrix wherever it is semidefinite; a clamp only shortens the
step of its coordinate.
-/

namespace BoxQP

open UpperBound

variable {n : Nat}

namespace Vec

def squaredDistance (u v : Vec ℝ n) : ℝ := ∑ i, (u i - v i) ^ 2

theorem squaredDistance_nonneg (u v : Vec ℝ n) : 0 ≤ u.squaredDistance v :=
  Finset.sum_nonneg fun _ _ => sq_nonneg _

theorem sq_sub_le_squaredDistance (u v : Vec ℝ n) (i : Fin n) :
    (u i - v i) ^ 2 ≤ u.squaredDistance v :=
  Finset.single_le_sum (fun j _ => sq_nonneg (u j - v j)) (Finset.mem_univ i)

end Vec

namespace Mat

variable {P Q : Mat ℝ n n}

/-- The form of a symmetric non-negative matrix is at most the weighted sum of squares
in which each row is scaled by a positive vector. The two orders of a pair of indices
are taken together. -/
theorem form_abs_le_weighted (nonneg : ∀ i j, 0 ≤ P i j) (symmetric : P.Symmetric) {c : Fin n → ℝ}
    (positive : ∀ i, 0 < c i) (z : Fin n → ℝ) :
    P.form (fun i => |z i|) ≤ ∑ i, (∑ j, P i j * c j) / c i * z i ^ 2 := by
  have pair (i j : Fin n) : 2 * (|z i| * |z j|) ≤ c j / c i * z i ^ 2 + c i / c j * z j ^ 2 := by
    have ci := positive i
    have cj := positive j
    have square : c j / c i * z i ^ 2 + c i / c j * z j ^ 2 - 2 * (|z i| * |z j|)
        = (c j * |z i| - c i * |z j|) ^ 2 / (c i * c j) := by
      rw [← sq_abs (z i), ← sq_abs (z j)]
      field_simp
      ring
    have : 0 ≤ (c j * |z i| - c i * |z j|) ^ 2 / (c i * c j) := by positivity
    linarith
  have weighted : ∑ i, (∑ j, P i j * c j) / c i * z i ^ 2
      = ∑ i, ∑ j, P i j * (c j / c i * z i ^ 2) := by
    refine Finset.sum_congr rfl fun i _ => ?_
    rw [Finset.sum_div, Finset.sum_mul]
    refine Finset.sum_congr rfl fun j _ => ?_
    ring
  have swapped : ∑ i, ∑ j, P i j * (c i / c j * z j ^ 2)
      = ∑ i, ∑ j, P i j * (c j / c i * z i ^ 2) := by
    rw [Finset.sum_comm]
    refine Finset.sum_congr rfl fun i _ => Finset.sum_congr rfl fun j _ => ?_
    rw [symmetric j i]
  have doubled : 2 * P.form (fun i => |z i|)
      ≤ ∑ i, ∑ j, P i j * (c j / c i * z i ^ 2) + ∑ i, ∑ j, P i j * (c i / c j * z j ^ 2) := by
    simp only [form, Finset.mul_sum, ← Finset.sum_add_distrib]
    refine Finset.sum_le_sum fun i _ => Finset.sum_le_sum fun j _ => ?_
    have := mul_le_mul_of_nonneg_left (pair i j) (nonneg i j)
    linarith
  rw [weighted]
  linarith

/-- Above the positive entries of a semidefinite matrix, half its form is majorised: at
the absolute values its negative entries weigh no more than its positive ones. -/
theorem half_form_le (semidefinite : Q.Semidefinite) (above : ∀ i j, max (Q i j) 0 ≤ P i j)
    (z : Fin n → ℝ) : 1 / 2 * Q.form z ≤ P.form (fun i => |z i|) := by
  have term (i j : Fin n) :
      z i * Q i j * z j + |z i| * Q i j * |z j| ≤ 2 * (|z i| * P i j * |z j|) := by
    have weight : 0 ≤ |z i| * |z j| := mul_nonneg (abs_nonneg _) (abs_nonneg _)
    have product_le : |z i * z j| ≤ |z i| * |z j| := (abs_mul _ _).le
    have bounded := mul_le_mul_of_nonneg_right (above i j) weight
    rcases le_total 0 (Q i j) with positive | negative
    · rw [max_eq_left positive] at bounded
      have := mul_le_mul_of_nonneg_left ((le_abs_self _).trans product_le) positive
      linarith
    · rw [max_eq_right negative] at bounded
      have := mul_le_mul_of_nonpos_left ((neg_le_abs _).trans product_le) negative
      linarith
  have total : Q.form z + Q.form (fun i => |z i|) ≤ 2 * P.form (fun i => |z i|) := by
    simp only [form, Finset.mul_sum, ← Finset.sum_add_distrib]
    exact Finset.sum_le_sum fun i _ => Finset.sum_le_sum fun j _ => term i j
  have := semidefinite fun i => |z i|
  linarith

end Mat

/-- A shortened step of scale `r` against `g` loses at least its square over the scale. -/
theorem slope_mul_le {c w r g : ℝ} (scale : 0 < r) (between : Between c w (c - r * g)) :
    g * (w - c) ≤ -(r⁻¹ * (w - c) ^ 2) := by
  have scaled : r * (g * (w - c)) ≤ -(w - c) ^ 2 := by
    have expanded : (w - c) * (c - r * g - w) = -(r * (g * (w - c))) - (w - c) ^ 2 := by ring
    have : 0 ≤ (w - c) * (c - r * g - w) := between
    linarith
  have := mul_le_mul_of_nonneg_left scaled (inv_pos.mpr scale).le
  rw [inv_mul_cancel_left₀ scale.ne'] at this
  linarith

namespace Split

variable {p : Policy} {q : Quadratic ℝ n} {ε : ℝ} {bound : Option (UpperBound ℝ n)} {c : Vec ℝ n}

/-- The decays over the values outweigh the form of the positive part and `ε` times the
square. -/
theorem weighted_le_decay (floor : 0 < ε) (symmetric : q.Q.Symmetric) (positive : ∀ i, 0 < c i)
    (z : Fin n → ℝ) :
    (p.positivePart q.Q).form (fun i => |z i|) + ε * ∑ i, z i ^ 2
      ≤ ∑ i, (build p q ε).decay c i / c i * z i ^ 2 := by
  have majorised := Mat.form_abs_le_weighted (p.positivePart_nonneg q.Q)
    (p.positivePart_symmetric symmetric) positive z
  have regular : ∑ i, (∑ j, p.positivePart q.Q i j * c j) / c i * z i ^ 2 + ε * ∑ i, z i ^ 2
      ≤ ∑ i, (build p q ε).decay c i / c i * z i ^ 2 := by
    rw [Finset.mul_sum, ← Finset.sum_add_distrib]
    refine Finset.sum_le_sum fun i _ => ?_
    have rest : 0 ≤ (build p q ε).negH i / c i * z i ^ 2 :=
      mul_nonneg (div_nonneg (negH_nonneg p q i floor.le) (positive i).le) (sq_nonneg _)
    have own : ε * c i / c i = ε := mul_div_cancel_right₀ ε (positive i).ne'
    rw [decay_eq, add_div, add_div, own, add_mul, add_mul]
    linarith
  linarith

/-- Every shortening of the full step goes down the slope by its squares, weighed with the
decays over the values. -/
theorem slope_step_le (floor : 0 < ε) (positive : ∀ i, 0 < c i) {w : Vec ℝ n}
    (between : ∀ i, Between (c i) (w i)
      (c i - c i / (build p q ε).decay c i * q.slope c i)) :
    ∑ i, q.slope c i * (w i - c i) ≤ -∑ i, (build p q ε).decay c i / c i * (w i - c i) ^ 2 := by
  rw [← Finset.sum_neg_distrib]
  refine Finset.sum_le_sum fun i _ => ?_
  have scale : 0 < c i / (build p q ε).decay c i :=
    div_pos (positive i) (decay_pos p q i floor positive)
  have lost := slope_mul_le scale (between i)
  rwa [inv_div] at lost

/-- The objective falls by `ε` times the squared step, for every shortening of the full
step. -/
theorem value_le_of_between (floor : 0 < ε) (symmetric : q.Q.Symmetric)
    (semidefinite : q.Q.Semidefinite) (positive : ∀ i, 0 < c i) {w : Vec ℝ n}
    (between : ∀ i, Between (c i) (w i)
      (c i - c i / (build p q ε).decay c i * q.slope c i)) :
    q.value w + ε * w.squaredDistance c ≤ q.value c := by
  have downhill := slope_step_le floor positive between
  have outweighed := weighted_le_decay (p := p) floor symmetric positive fun i => w i - c i
  have curved := Mat.half_form_le semidefinite (p.max_le_positivePart q.Q) fun i => w i - c i
  rw [Quadratic.value_eq_expansion symmetric c w, Vec.squaredDistance]
  linarith

theorem synchronous_within (s : Split ℝ n) (ε : ℝ) (bound : Option (UpperBound ℝ n)) (x : Vec ℝ n) :
    Within bound (s.synchronous ε bound x) := by
  intro i
  rw [synchronous_apply, coordinate_real]
  exact allows_cap

end Split

section Run

variable {q : Quadratic ℝ n} {ε : ℝ} {bound : Option (UpperBound ℝ n)}

/-- One step, before and after the floor that the next one starts with. -/
theorem value_synchronous_le (p : Policy) (symmetric : q.Q.Symmetric)
    (semidefinite : q.Q.Semidefinite) (floor : 0 < ε) {x : Vec ℝ n}
    (inside : x.floored ε ∈ box ε bound) :
    let y := (Split.build p q ε).synchronous ε bound x
    q.value y + ε * y.squaredDistance (x.floored ε) ≤ q.value (x.floored ε) ∧
      q.value (y.floored ε) + ε * (y.floored ε).squaredDistance (x.floored ε)
        ≤ q.value (x.floored ε) := by
  intro y
  have positive := positive_of_mem_box floor inside
  have between (i : Fin n) : Between (x.floored ε i) (y i)
      (x.floored ε i
        - x.floored ε i / (Split.build p q ε).decay (x.floored ε) i * q.slope (x.floored ε) i) := by
    rw [Split.synchronous_eq_cap p q i floor bound x]
    exact between_cap (inside i).2
  constructor
  · exact Split.value_le_of_between floor symmetric semidefinite positive between
  · refine Split.value_le_of_between (p := p) floor symmetric semidefinite positive fun i => ?_
    rw [Vec.floored_real y]
    exact (between i).floor (inside i).1

namespace Split

/-- The floor of the iterate after `k` synchronous updates. -/
noncomputable def flooredIterate (s : Split ℝ n) (ε : ℝ) (bound : Option (UpperBound ℝ n))
    (start : Vec ℝ n) (k : Nat) : Vec ℝ n :=
  ((s.synchronous ε bound)^[k] start).floored ε

theorem flooredIterate_succ (s : Split ℝ n) (ε : ℝ) (bound : Option (UpperBound ℝ n))
    (start : Vec ℝ n) (k : Nat) :
    s.flooredIterate ε bound start (k + 1)
      = (s.synchronous ε bound ((s.synchronous ε bound)^[k] start)).floored ε :=
  congrArg (Vec.floored · ε) (Function.iterate_succ_apply' _ k start)

variable {start : Vec ℝ n}

theorem flooredIterate_succ_mem_box (s : Split ℝ n) (room : AtLeast ε bound) (k : Nat) :
    s.flooredIterate ε bound start (k + 1) ∈ box ε bound := by
  rw [flooredIterate_succ]
  exact (floored_mem_box_iff _).mpr ((synchronous_within s ε bound _).floored room)

variable {p : Policy}

theorem value_flooredIterate_succ (symmetric : q.Q.Symmetric) (semidefinite : q.Q.Semidefinite)
    (floor : 0 < ε) {k : Nat}
    (inside : (build p q ε).flooredIterate ε bound start k ∈ box ε bound) :
    let c := (build p q ε).flooredIterate ε bound start
    q.value (c (k + 1)) + ε * (c (k + 1)).squaredDistance (c k) ≤ q.value (c k) := by
  intro c
  have lower := (value_synchronous_le p symmetric semidefinite floor inside).2
  rwa [← flooredIterate_succ] at lower

/-- From the first floored iterate within the bound on, the values never rise. -/
theorem value_flooredIterate_le (symmetric : q.Q.Symmetric) (semidefinite : q.Q.Semidefinite)
    (floor : 0 < ε) (room : AtLeast ε bound) {j k : Nat}
    (inside : (build p q ε).flooredIterate ε bound start j ∈ box ε bound) (reached : j ≤ k) :
    q.value ((build p q ε).flooredIterate ε bound start k)
      ≤ q.value ((build p q ε).flooredIterate ε bound start j) := by
  induction k, reached using Nat.le_induction with
  | base => exact le_rfl
  | succ k reached ih =>
    have here : (build p q ε).flooredIterate ε bound start k ∈ box ε bound := by
      rcases Nat.eq_or_lt_of_le reached with same | before
      · exact same ▸ inside
      · obtain ⟨m, rfl⟩ := Nat.exists_eq_add_of_lt before
        exact flooredIterate_succ_mem_box _ room (j + m)
    have lower := value_flooredIterate_succ symmetric semidefinite floor here
    have lost := mul_nonneg floor.le (Vec.squaredDistance_nonneg
      ((build p q ε).flooredIterate ε bound start (k + 1))
      ((build p q ε).flooredIterate ε bound start k))
    linarith

end Split

/-- Descent along a whole run of the synchronous iteration. From a floored iterate
within the bound, both the next iterate and its floor lower the objective by `ε` times
the squared step. All floored iterates after the first are within the bound, and the
first is if the start is, so that their values never rise. -/
theorem synchronous_run_descends (p : Policy) (symmetric : q.Q.Symmetric)
    (semidefinite : q.Q.Semidefinite) (floor : 0 < ε) (room : AtLeast ε bound) (start : Vec ℝ n) :
    let x := fun k => ((Split.build p q ε).synchronous ε bound)^[k] start
    let c := fun k => (x k).floored ε
    (∀ k, Within bound (c k) →
      q.value (x (k + 1)) + ε * (x (k + 1)).squaredDistance (c k) ≤ q.value (c k) ∧
      q.value (c (k + 1)) + ε * (c (k + 1)).squaredDistance (c k) ≤ q.value (c k)) ∧
    (∀ k, 1 ≤ k ∨ Within bound start → Within bound (c k)) ∧
    (∀ j k, Within bound (c j) → j ≤ k → q.value (c k) ≤ q.value (c j)) := by
  intro x c
  refine ⟨?_, ?_, ?_⟩
  · intro k within
    have inside : c k ∈ box ε bound := (floored_mem_box_iff (x k)).mpr within
    have step : x (k + 1) = (Split.build p q ε).synchronous ε bound (x k) :=
      Function.iterate_succ_apply' _ k start
    have lower := value_synchronous_le p symmetric semidefinite floor inside
    rw [← step] at lower
    exact lower
  · rintro (_ | k) reached
    · exact (reached.resolve_left (by omega)).floored room
    · exact (floored_mem_box_iff _).mp (Split.flooredIterate_succ_mem_box _ room k)
  · intro j k within reached
    have inside : c j ∈ box ε bound := (floored_mem_box_iff (x j)).mpr within
    exact Split.value_flooredIterate_le symmetric semidefinite floor room inside reached

/-- A singular objective, from a start that is out of the box on both sides. -/
theorem synchronous_run_descends_coupled :
    (Quadratic.coupled 0).Q.Symmetric ∧ (Quadratic.coupled 0).Q.Semidefinite ∧ (0 : ℝ) < 1 / 2 ∧
      AtLeast (1 / 2) (some (.uniform 2 : UpperBound ℝ 2)) ∧
      ∀ k, (Quadratic.coupled 0).value
          ((Split.build .simple (.coupled 0) (1 / 2)).flooredIterate (1 / 2) (some (.uniform 2))
            #v[-1, 3] (k + 2))
        ≤ (Quadratic.coupled 0).value
          ((Split.build .simple (.coupled 0) (1 / 2)).flooredIterate (1 / 2) (some (.uniform 2))
            #v[-1, 3] (k + 1)) := by
  have symmetric := Quadratic.coupled_symmetric 0
  have semidefinite := Quadratic.coupled_semidefinite
  have floor : (0 : ℝ) < 1 / 2 := by norm_num
  have room : AtLeast (1 / 2) (some (.uniform 2 : UpperBound ℝ 2)) := by
    intro i
    rw [allows_some_iff]
    change (1 / 2 : ℝ) ≤ 2
    norm_num
  obtain ⟨-, within, falling⟩ :=
    synchronous_run_descends .simple symmetric semidefinite floor room #v[-1, 3]
  refine ⟨symmetric, semidefinite, floor, room, fun k => ?_⟩
  exact falling (k + 1) (k + 2) (within (k + 1) (Or.inl (by omega))) (by omega)

end Run

end BoxQP
