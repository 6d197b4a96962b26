import BoxQP.Proofs.Optimality
import BoxQP.Proofs.Positivity
import BoxQP.Proofs.Residual

/-!
# What convergence certifies

A run that converges answers the result of an update, and the look that ended it has seen
the products of the coordinates with their slopes. So far as the bound is not negative,
the answer is feasible and complementary up to the tolerance. That look says nothing of
the sign of a slope: over the non-negative orthant the answer of a convex problem is
optimal up to the tolerance for each coordinate, except for what can be gained by making
coordinates with a negative slope more than twice as large.
-/

namespace BoxQP

open UpperBound

variable {n : Nat}

namespace Split

variable (p : Policy) (q : Quadratic ℝ n) {ε : ℝ} {bound : Option (UpperBound ℝ n)} {x : Vec ℝ n}
  {i : Fin n}

theorem growth_nonneg (floor : 0 ≤ ε) (nonneg : ∀ j, 0 ≤ x j) : 0 ≤ (build p q ε).growth x i := by
  rw [growth_real]
  have products : 0 ≤ ∑ j, (build p q ε).negQ i j * x j :=
    Finset.sum_nonneg fun j _ => mul_nonneg (negQ_nonneg p q i j floor) (nonneg j)
  exact add_nonneg products (posH_nonneg p q i floor)

theorem decay_nonneg (floor : 0 ≤ ε) (nonneg : ∀ j, 0 ≤ x j) : 0 ≤ (build p q ε).decay x i := by
  rw [decay_real]
  have products : 0 ≤ ∑ j, (build p q ε).posQ i j * x j :=
    Finset.sum_nonneg fun j _ => mul_nonneg (posQ_nonneg p q i j floor) (nonneg j)
  exact add_nonneg products (negH_nonneg p q i floor)

theorem coordinate_nonneg (floor : 0 ≤ ε) (room : Allows bound i 0) (nonneg : ∀ j, 0 ≤ x j) :
    0 ≤ (build p q ε).coordinate bound x i := by
  rw [coordinate_real]
  refine le_cap_iff.mpr ⟨?_, room⟩
  exact div_nonneg (mul_nonneg (nonneg i) (growth_nonneg p q floor nonneg))
    (decay_nonneg p q floor nonneg)

/-- A sweep leaves the non-negative numbers only where it meets a negative bound. -/
theorem sweepTo_nonneg (floor : 0 ≤ ε) (nonneg : ∀ j, 0 ≤ x j) (k : Nat) (inside : k ≤ n)
    (room : ∀ j : Fin n, j.val < k → Allows bound j 0) (j : Fin n) :
    0 ≤ (build p q ε).sweepTo bound x k inside j := by
  refine sweepTo_forall nonneg k inside (fun w before i passed => ?_) j
  exact coordinate_nonneg p q floor (room i passed) before

/-- An updated coordinate is not negative if its bound is not, and in a sweep neither are
those of the coordinates before it. -/
theorem update_nonneg (o : Schedule) (floor : 0 ≤ ε) (room : Allows bound i 0)
    (earlier : o = .gaussSeidel → ∀ j < i, Allows bound j 0) (x : Vec ℝ n) :
    0 ≤ (build p q ε).update o ε bound x i := by
  have start (j : Fin n) : 0 ≤ x.floored ε j := floor.trans (x.le_floored ε j)
  rw [update_apply]
  refine coordinate_nonneg p q floor room fun j => ?_
  cases o with
  | synchronous => exact start j
  | gaussSeidel =>
    exact sweepTo_nonneg p q floor start i.val _ (fun j passed => earlier rfl j passed) j

end Split

namespace Problem

variable (p : Problem ℝ n) (c : Config ℝ) (tracked : Bool)

/-- The look that ends a run follows an update. -/
theorem exists_update_of_converged (converged : (p.solve c tracked).verdict = .converged) :
    ∃ w, (p.solve c tracked).x
      = (Split.build c.policy p.objective c.epsilon).update c.schedule c.epsilon p.bound w := by
  obtain ⟨first, -⟩ := solve_steps_mem_passing converged
  obtain ⟨k, last⟩ := Nat.exists_eq_add_of_le' first
  refine ⟨(p.iteration c).iterate p.start k, ?_⟩
  rw [p.solve_x_eq_iterate c tracked, last]
  rfl

/-- A run that converges answers a point within the bound whose residual terms are below
the tolerance. A coordinate is not negative, and the size of its product with its slope
then below the tolerance, if its bound is not negative and, in sweeps, the bounds of the
coordinates before it are not either. -/
theorem converged_feasible_complementary (floor : 0 < c.epsilon)
    (converged : (p.solve c tracked).verdict = .converged) :
    let x := (p.solve c tracked).x
    let g := p.objective.slope x
    ∀ i, Allows p.bound i (x i) ∧ x i * |g i| < c.tolerance n ∧
      (Allows p.bound i 0 → (c.schedule = .gaussSeidel → ∀ j < i, Allows p.bound j 0) →
        0 ≤ x i ∧ |x i * g i| < c.tolerance n) := by
  intro x g i
  obtain ⟨w, updated⟩ := p.exists_update_of_converged c tracked converged
  have place : x = _ := updated
  have small : x i * |g i| < c.tolerance n :=
    (Quadratic.mul_abs_slope_le_residual i).trans_lt (p.solve_residual_lt c tracked converged)
  refine ⟨?_, small, ?_⟩
  · rw [place]
    exact Split.update_within _ c.schedule c.epsilon p.bound w i
  · intro room earlier
    have nonneg : 0 ≤ x i := by
      rw [place]
      exact Split.update_nonneg c.policy p.objective c.schedule floor.le room earlier w
    refine ⟨nonneg, ?_⟩
    rwa [abs_mul, abs_of_nonneg nonneg]

end Problem

/-- A single step with a look after it, and the floor one. -/
noncomputable def Config.singleStep (o : Schedule) : Config ℝ where
  epsilon := 1
  threshold := none
  maxSteps := .whole 1
  checkEvery := .whole 1
  policy := .simple
  schedule := o

theorem Config.singleStep_valid (o : Schedule) : (Config.singleStep o).Valid where
  epsilon_pos := decide_eq_true one_pos
  threshold_pos := fun _ given => nomatch given
  checkEvery_pos := le_rfl

theorem Config.singleStep_tolerance (o : Schedule) (k : Int) :
    (Config.singleStep o).tolerance k = k :=
  mul_one (k : ℝ)

namespace Problem

/-- Two unknowns that raise each other, under a bound of their own each. -/
noncomputable def tied (u v : ℝ) : Problem ℝ 2 where
  objective := .coupled 0
  start := Vector.replicate 2 1
  bound := some (.each #v[u, v])

theorem tied_coordinate (u v : ℝ) (w : Vec ℝ 2) :
    let s := Split.build .simple (tied u v).objective 1
    s.coordinate (tied u v).bound w 0 = min (w 0 * (w 0 + w 1 + 2) / (2 * w 0 + 1)) u ∧
      s.coordinate (tied u v).bound w 1 = min (w 1 * (w 0 + w 1) / (2 * w 1)) v := by
  intro s
  have growth : s.growth w 0 = w 0 + w 1 + 2 ∧ s.growth w 1 = w 0 + w 1 := by
    simp only [s, Split.growth_simple, Fin.sum_univ_two]
    constructor
    · change (max (1 + 0) 0 + 1 - (1 + 0)) * w 0 + (max (-1) 0 + 0 - -1) * w 1
        + max 1 0 * (1 + 1) = _
      norm_num
    · change (max (-1) 0 + 0 - -1) * w 0 + (max (1 + 0) 0 + 1 - (1 + 0)) * w 1
        + max 0 0 * (1 + 1) = _
      norm_num
  have decay : s.decay w 0 = 2 * w 0 + 1 ∧ s.decay w 1 = 2 * w 1 := by
    simp only [s, Split.decay_simple, Fin.sum_univ_two]
    constructor
    · change (max (1 + 0) 0 + 1) * w 0 + (max (-1) 0 + 0) * w 1 + (max 1 0 * (1 + 1) - 1) = _
      norm_num
    · change (max (-1) 0 + 0) * w 0 + (max (1 + 0) 0 + 1) * w 1 + (max 0 0 * (1 + 1) - 0) = _
      norm_num
  rw [Split.coordinate_real, Split.coordinate_real, growth.1, growth.2, decay.1, decay.2]
  exact ⟨rfl, rfl⟩

theorem tied_sweep (v : ℝ) {u : ℝ} (low : u ≤ 1) :
    let x := (Split.build .simple (tied u v).objective 1).sweep 1 (tied u v).bound (tied u v).start
    x 0 = u ∧ x 1 = min ((u + 1) / 2) v := by
  intro x
  let s := Split.build .simple (tied u v).objective 1
  let c := (tied u v).start.floored 1
  have start (i : Fin 2) : c i = 1 := by
    refine (Vec.floored_real _ 1 i).trans ?_
    change max (Vector.replicate 2 (1 : ℝ) i) 1 = 1
    rw [Vec.replicate_apply, max_self]
  have first (k : Nat) (inside : k ≤ 2) (passed : 0 < k) :
      s.sweepTo (tied u v).bound c k inside 0 = u := by
    rw [s.sweepTo_apply_of_lt (tied u v).bound c k inside 0 passed]
    change s.coordinate (tied u v).bound c 0 = u
    rw [(tied_coordinate u v c).1, start, start]
    refine min_eq_right (low.trans ?_)
    norm_num
  refine ⟨first 2 le_rfl Nat.two_pos, ?_⟩
  let w := s.sweepTo (tied u v).bound c 1 one_le_two
  have changed : w 0 = u := first 1 one_le_two Nat.one_pos
  have waiting : w 1 = 1 :=
    (s.sweepTo_apply_of_le (tied u v).bound c 1 one_le_two 1 le_rfl).trans (start 1)
  have reached : x 1 = s.coordinate (tied u v).bound w 1 :=
    s.sweepTo_apply_of_lt (tied u v).bound c 2 le_rfl 1 Nat.one_lt_two
  rw [reached, (tied_coordinate u v w).2, changed, waiting, one_mul, mul_one]

theorem tied_slope (u v : ℝ) (x : Vec ℝ 2) :
    (tied u v).objective.slope x 0 = x 0 - x 1 - 1 ∧
      (tied u v).objective.slope x 1 = x 1 - x 0 := by
  constructor
  · refine (Quadratic.coupled_slope 0 x 0).trans ?_
    change (1 + 0) * x 0 - x 1 - 1 = _
    ring
  · refine (Quadratic.coupled_slope 0 x 1).trans ?_
    change (1 + 0) * x 1 - x 0 = _
    ring

/-- The first coordinate ends on its bound, and the second one is read after it. -/
theorem tied_solve (v : ℝ) {u : ℝ} (low : u ≤ 1) :
    let s := (tied u v).solve (.singleStep .gaussSeidel) false
    s.x 0 = u ∧ s.x 1 = min ((u + 1) / 2) v ∧
      (s.verdict = .converged ↔
        s.x 0 * |s.x 0 - s.x 1 - 1| < 2 ∧ s.x 1 * |s.x 1 - s.x 0| < 2) := by
  intro s
  obtain ⟨place, verdict⟩ := (tied u v).solve_one_period (.singleStep .gaussSeidel) false le_rfl rfl
  have swept : s.x = (Split.build .simple (tied u v).objective 1).sweep 1 (tied u v).bound
      (tied u v).start := place
  obtain ⟨first, second⟩ := tied_sweep v low
  rw [← swept] at first second
  refine ⟨first, second, verdict.trans (decide_eq_true_iff.trans ?_)⟩
  obtain ⟨slope_first, slope_second⟩ := tied_slope u v s.x
  change (tied u v).objective.residual s.x < (Config.singleStep .gaussSeidel).tolerance 2 ↔ _
  rw [Config.singleStep_tolerance, Quadratic.residual_lt_iff, Fin.forall_fin_two, slope_first,
    slope_second, Int.cast_ofNat]

/-- With a bound of zero in its way, a sweep stays within what the statement promises. -/
theorem converged_feasible_complementary_tied :
    let p := tied 0 5
    let s := p.solve (.singleStep .gaussSeidel) false
    0 < (Config.singleStep .gaussSeidel).epsilon ∧ s.verdict = .converged ∧
      Allows p.bound 1 0 ∧ (∀ j < (1 : Fin 2), Allows p.bound j 0) ∧ 0 ≤ s.x 1 ∧
      |s.x 1 * p.objective.slope s.x 1| < (Config.singleStep .gaussSeidel).tolerance 2 := by
  intro p s
  have floor : 0 < (Config.singleStep .gaussSeidel).epsilon := one_pos
  obtain ⟨first, second, verdict⟩ := tied_solve 5 zero_le_one
  have converged : s.verdict = .converged := by
    rw [verdict, first, second]
    norm_num [abs_of_neg]
  have room : Allows p.bound 1 0 := by
    refine (allows_some_iff _).mpr ?_
    change (0 : ℝ) ≤ 5
    norm_num
  have earlier : ∀ j < (1 : Fin 2), Allows p.bound j 0 := by
    refine Fin.forall_fin_two.mpr ⟨fun _ => (allows_some_iff _).mpr le_rfl, ?_⟩
    exact fun same => absurd same (lt_irrefl 1)
  obtain ⟨-, -, within⟩ := p.converged_feasible_complementary _ false floor converged 1
  exact ⟨floor, converged, room, earlier, within room fun _ => earlier⟩

/-- A sweep that meets a negative bound carries the sign on to a coordinate whose own bound
is positive, and the test passes with both products far from zero. -/
theorem tied_converges_negative :
    let p := tied (-8) 5
    let s := p.solve (.singleStep .gaussSeidel) false
    (∀ i, 0 < p.start i) ∧ (Config.singleStep .gaussSeidel).Valid ∧ s.verdict = .converged ∧
      Allows p.bound 1 0 ∧ s.x 0 < 0 ∧ s.x 1 < 0 ∧
      ∀ i, (Config.singleStep .gaussSeidel).tolerance 2 < |s.x i * p.objective.slope s.x i| := by
  intro p s
  obtain ⟨first, second, verdict⟩ := tied_solve 5 (u := -8) (by norm_num)
  have half : min ((-8 + 1) / 2) (5 : ℝ) = -7 / 2 := by norm_num
  rw [half] at second
  refine ⟨?_, Config.singleStep_valid _, ?_, ?_, ?_, ?_, ?_⟩
  · intro i
    exact one_pos.trans_eq (Vec.replicate_apply (1 : ℝ) i).symm
  · rw [verdict, first, second]
    norm_num [abs_of_neg]
  · refine (allows_some_iff _).mpr ?_
    change (0 : ℝ) ≤ 5
    norm_num
  · rw [first]
    norm_num
  · rw [second]
    norm_num
  · obtain ⟨slope_first, slope_second⟩ := tied_slope (-8) 5 s.x
    rw [Config.singleStep_tolerance, Fin.forall_fin_two, slope_first, slope_second, first, second]
    norm_num [abs_of_pos]

end Problem

namespace Quadratic

/-- What the residual at `x` does not see of the way to `y`: the slope of each coordinate
that still grows, times the part of its way that is longer than its value. -/
noncomputable def unseenGain (q : Quadratic ℝ n) (x y : Vec ℝ n) : ℝ :=
  ∑ i, max (y i - x i - x i) 0 * max (-q.slope x i) 0

variable {q : Quadratic ℝ n} {x y : Vec ℝ n}

/-- Nothing is hidden if each coordinate is at most doubled or has no negative slope. -/
theorem unseenGain_eq_zero (seen : ∀ i, y i ≤ 2 * x i ∨ 0 ≤ q.slope x i) :
    q.unseenGain x y = 0 := by
  refine Finset.sum_eq_zero fun i _ => ?_
  rcases seen i with near | uphill
  · have short : y i - x i - x i ≤ 0 := by linarith
    rw [max_eq_right short, zero_mul]
  · rw [max_eq_right (neg_nonpos.mpr uphill), mul_zero]

/-- One coordinate of the way from `x` to `y`, along the slope `g` at `x`. -/
theorem slope_mul_sub_le {x y g r : ℝ} (nonneg : 0 ≤ y) (small : x * |g| ≤ r) :
    g * (x - y) ≤ r + max (y - x - x) 0 * max (-g) 0 := by
  have hidden : 0 ≤ max (y - x - x) 0 * max (-g) 0 :=
    mul_nonneg (le_max_right _ _) (le_max_right _ _)
  rcases le_total 0 g with uphill | downhill
  · rw [abs_of_nonneg uphill] at small
    have := mul_nonneg uphill nonneg
    linarith
  · rw [abs_of_nonpos downhill] at small
    rw [max_eq_left (neg_nonneg.mpr downhill)]
    have := mul_le_mul_of_nonneg_right (le_max_left (y - x - x) 0) (neg_nonneg.mpr downhill)
    linarith

theorem value_le_add_residual (symmetric : q.Q.Symmetric) (semidefinite : q.Q.Semidefinite)
    (x : Vec ℝ n) (nonneg : ∀ i, 0 ≤ y i) :
    q.value x ≤ q.value y + n * q.residual x + q.unseenGain x y := by
  have terms : ∑ i, q.slope x i * (x i - y i)
      ≤ ∑ i, (q.residual x + max (y i - x i - x i) 0 * max (-q.slope x i) 0) :=
    Finset.sum_le_sum fun i _ => slope_mul_sub_le (nonneg i) (mul_abs_slope_le_residual i)
  have total : ∑ i, (q.residual x + max (y i - x i - x i) 0 * max (-q.slope x i) 0)
      = n * q.residual x + q.unseenGain x y := by
    rw [Finset.sum_add_distrib, Finset.sum_const, Finset.card_univ, Fintype.card_fin, nsmul_eq_mul]
    rfl
  have turned : ∑ i, q.slope x i * (y i - x i) = -∑ i, q.slope x i * (x i - y i) := by
    rw [← Finset.sum_neg_distrib]
    refine Finset.sum_congr rfl fun i _ => ?_
    ring
  have curved := semidefinite fun i => y i - x i
  rw [value_eq_expansion symmetric x y, turned]
  linarith

end Quadratic

namespace Problem

/-- A run of a convex problem that converges answers a point that is optimal over the
non-negative orthant, up to the tolerance for each coordinate and to the gain that its
residual does not see. -/
theorem converged_value_le {p : Problem ℝ n} {c : Config ℝ} {tracked : Bool}
    (symmetric : p.objective.Q.Symmetric) (semidefinite : p.objective.Q.Semidefinite)
    (converged : (p.solve c tracked).verdict = .converged) {y : Vec ℝ n} (nonneg : ∀ i, 0 ≤ y i) :
    let x := (p.solve c tracked).x
    p.objective.value x
        ≤ p.objective.value y + n * c.tolerance n + p.objective.unseenGain x y ∧
      ((∀ i, y i ≤ 2 * x i ∨ 0 ≤ p.objective.slope x i) →
        p.objective.value x ≤ p.objective.value y + n * c.tolerance n) := by
  intro x
  have small : p.objective.residual x ≤ c.tolerance n :=
    (p.solve_residual_lt c tracked converged).le
  have tolerated := mul_le_mul_of_nonneg_left small (Nat.cast_nonneg (α := ℝ) n)
  have close := Quadratic.value_le_add_residual symmetric semidefinite x nonneg
  have bounded : p.objective.value x
      ≤ p.objective.value y + n * c.tolerance n + p.objective.unseenGain x y := by
    linarith
  refine ⟨bounded, fun seen => ?_⟩
  rwa [Quadratic.unseenGain_eq_zero seen, add_zero] at bounded

/-- One unknown with curvature `a` that is pulled by `b`. -/
noncomputable def lone (a b : ℝ) : Problem ℝ 1 where
  objective := { Q := #v[#v[a]], h := #v[b] }
  start := #v[1]
  bound := none

section Lone

variable {a b : ℝ}

theorem lone_symmetric (a b : ℝ) : (lone a b).objective.Q.Symmetric :=
  Fin.forall_fin_one.mpr (Fin.forall_fin_one.mpr rfl)

theorem lone_definite (curved : 0 < a) : (lone a b).objective.Q.Definite := by
  intro v nonzero
  have entry : v 0 ≠ 0 := by
    intro zero
    exact nonzero (funext (Fin.forall_fin_one.mpr zero))
  have form : (lone a b).objective.Q.form v = a * (v 0 * v 0) := by
    simp only [Mat.form, Fin.sum_univ_one]
    change v 0 * a * v 0 = _
    ring
  rw [form]
  exact mul_pos curved (mul_self_pos.mpr entry)

theorem lone_slope (a b : ℝ) (x : Vec ℝ 1) : (lone a b).objective.slope x 0 = a * x 0 - b := by
  rw [Quadratic.slope_real, Fin.sum_univ_one]
  rfl

theorem lone_value (a b : ℝ) (x : Vec ℝ 1) :
    (lone a b).objective.value x = 1 / 2 * (a * x 0 ^ 2) - b * x 0 := by
  rw [Quadratic.value_real, Mat.form, Fin.sum_univ_one, Fin.sum_univ_one, Fin.sum_univ_one]
  change 1 / 2 * (x 0 * a * x 0) - b * x 0 = _
  ring

theorem lone_update (curved : 0 ≤ a) (pulled : 0 ≤ b) :
    (Split.build .simple (lone a b).objective 1).synchronous 1 none (lone a b).start 0
      = (1 + 2 * b) / (1 + a + b) := by
  let s := Split.build .simple (lone a b).objective 1
  have start : (lone a b).start.floored 1 0 = 1 := by
    rw [Vec.floored_real]
    exact max_self 1
  have growth : s.growth ((lone a b).start.floored 1) 0 = 1 + 2 * b := by
    rw [Split.growth_simple, Fin.sum_univ_one, start]
    change (max a 0 + 1 - a) * 1 + max b 0 * (1 + 1) = _
    rw [max_eq_left curved, max_eq_left pulled]
    ring
  have decay : s.decay ((lone a b).start.floored 1) 0 = 1 + a + b := by
    rw [Split.decay_simple, Fin.sum_univ_one, start]
    change (max a 0 + 1) * 1 + (max b 0 * (1 + 1) - b) = _
    rw [max_eq_left curved, max_eq_left pulled]
    ring
  rw [Split.synchronous_apply, Split.coordinate_real, start, growth, decay, one_mul]
  rfl

theorem lone_solve (curved : 0 ≤ a) (pulled : 0 ≤ b) :
    let s := (lone a b).solve (.singleStep .synchronous) false
    s.x 0 = (1 + 2 * b) / (1 + a + b) ∧
      (s.verdict = .converged ↔ s.x 0 * |a * s.x 0 - b| < 1) := by
  intro s
  obtain ⟨place, verdict⟩ :=
    (lone a b).solve_one_period (.singleStep .synchronous) false le_rfl rfl
  have entry : s.x 0 = (1 + 2 * b) / (1 + a + b) :=
    (congrArg (fun x : Vec ℝ 1 => x 0) place).trans (lone_update curved pulled)
  refine ⟨entry, verdict.trans (decide_eq_true_iff.trans ?_)⟩
  change (lone a b).objective.residual s.x < (Config.singleStep .synchronous).tolerance 1 ↔ _
  rw [Config.singleStep_tolerance, Quadratic.residual_lt_iff, Fin.forall_fin_one, lone_slope,
    Int.cast_one]

end Lone

/-- A small curvature makes the minimum lie far from the start, and the slope small. -/
theorem lone_shallow_converged :
    let s := (lone (1 / 16) (1 / 2)).solve (.singleStep .synchronous) false
    s.verdict = .converged ∧ s.x 0 = 32 / 25 := by
  intro s
  obtain ⟨entry, verdict⟩ := lone_solve (a := 1 / 16) (b := 1 / 2) (by norm_num) (by norm_num)
  have place : s.x 0 = 32 / 25 := by
    rw [entry]
    norm_num
  refine ⟨verdict.mpr ?_, place⟩
  rw [place]
  norm_num [abs_of_neg]

/-- From `32 / 25` the point `2` is within the double, though its value is lower. -/
theorem converged_value_le_lone :
    let p := lone (1 / 16) (1 / 2)
    let s := p.solve (.singleStep .synchronous) false
    let y : Vec ℝ 1 := #v[2]
    p.objective.Q.Symmetric ∧ p.objective.Q.Semidefinite ∧ s.verdict = .converged ∧
      (∀ i, 0 ≤ y i) ∧
      p.objective.value s.x
        ≤ p.objective.value y + (1 : Nat) * (Config.singleStep .synchronous).tolerance 1 := by
  intro p s y
  have symmetric := lone_symmetric (1 / 16) (1 / 2)
  have semidefinite : p.objective.Q.Semidefinite := (lone_definite (by norm_num)).semidefinite
  obtain ⟨converged, place⟩ := lone_shallow_converged
  have nonneg : ∀ i, 0 ≤ y i := Fin.forall_fin_one.mpr zero_le_two
  refine ⟨symmetric, semidefinite, converged, nonneg, ?_⟩
  refine (converged_value_le symmetric semidefinite converged nonneg).2 ?_
  refine Fin.forall_fin_one.mpr (Or.inl ?_)
  rw [place]
  change (2 : ℝ) ≤ 2 * (32 / 25)
  norm_num

/-- The minimum lies at `8`, and the run ends at `32 / 25`. -/
theorem lone_converges_far_from_minimum :
    let p := lone (1 / 16) (1 / 2)
    let s := p.solve (.singleStep .synchronous) false
    let y : Vec ℝ 1 := #v[8]
    p.objective.Q.Symmetric ∧ p.objective.Q.Semidefinite ∧ (∀ i, 0 < p.start i) ∧
      (Config.singleStep .synchronous).Valid ∧ p.bound = none ∧ s.verdict = .converged ∧
      (∀ i, 0 ≤ y i) ∧
      p.objective.value y + (1 : Nat) * (Config.singleStep .synchronous).tolerance 1
        < p.objective.value s.x := by
  intro p s y
  obtain ⟨converged, place⟩ := lone_shallow_converged
  have semidefinite : p.objective.Q.Semidefinite := (lone_definite (by norm_num)).semidefinite
  refine ⟨lone_symmetric _ _, semidefinite, Fin.forall_fin_one.mpr one_pos,
    Config.singleStep_valid _, rfl, converged, Fin.forall_fin_one.mpr ?_, ?_⟩
  · change (0 : ℝ) ≤ 8
    norm_num
  · rw [Config.singleStep_tolerance, lone_value, lone_value, place]
    change (1 / 2 * (1 / 16 * 8 ^ 2) - 1 / 2 * 8 + (1 : Nat) * ((1 : Int) : ℝ) : ℝ)
      < 1 / 2 * (1 / 16 * (32 / 25) ^ 2) - 1 / 2 * (32 / 25)
    norm_num

end Problem

end BoxQP
