import BoxQP.Proofs.Certificate
import BoxQP.Proofs.Convergence

/-!
# The limit of the residual

A look reads the residual at the result of an update, before the next update floors it. So
the residuals of a long synchronous run tend to the residual of one more update of the
minimiser over the box, and not of the minimiser itself. A large enough budget is enough if
this limit is below the tolerance, and late looks all fail if it is above. The limit is zero
where no coordinate of the minimiser has a slope, but a coordinate that is held at the floor
can keep it above the standard tolerance, so that no budget is enough.
-/

namespace BoxQP

open UpperBound Filter Topology

variable {n : Nat}

section Limit

variable {ι : Type} {l : Filter ι}

theorem tendsto_foldl_max {f : ι → Fin n → ℝ} {g : Fin n → ℝ} {u : ι → ℝ} {a : ℝ}
    (first : Tendsto u l (𝓝 a)) (others : ∀ i, Tendsto (fun k => f k i) l (𝓝 (g i))) :
    Tendsto (fun k => Fin.foldl n (fun acc i => max acc (f k i)) (u k)) l
      (𝓝 (Fin.foldl n (fun acc i => max acc (g i)) a)) := by
  induction n with
  | zero => simpa only [Fin.foldl_zero] using first
  | succ n ih =>
    simp only [Fin.foldl_succ_last]
    exact (ih fun i => others i.castSucc).max (others (Fin.last n))

variable {c : ι → Vec ℝ n} {m : Vec ℝ n}

theorem Approaches.largest (approaches : Approaches l c m) :
    Tendsto (fun k => (c k).largest) l (𝓝 m.largest) := by
  cases n with
  | zero => exact tendsto_const_nhds
  | succ n => exact tendsto_foldl_max (approaches 0) fun i => approaches i.succ

theorem Approaches.residual (approaches : Approaches l c m) (q : Quadratic ℝ n) :
    Tendsto (fun k => q.residual (c k)) l (𝓝 (q.residual m)) := by
  refine Approaches.largest fun i => ?_
  have slope : Tendsto (fun k => q.slope (c k) i) l (𝓝 (q.slope m i)) := by
    simp only [Quadratic.slope_real]
    exact (approaches.product (q.Q i)).sub_const _
  simp only [Quadratic.complementarity_apply]
  exact (approaches i).mul slope.abs

end Limit

namespace Problem

variable {p : Problem ℝ n} {c : Config ℝ}

theorem iteration_next (synchronous : c.schedule = .synchronous) (x : Vec ℝ n) :
    (p.iteration c).next x
      = (Split.build c.policy p.objective c.epsilon).synchronous c.epsilon p.bound x := by
  change Split.update _ c.schedule _ _ _ = _
  rw [synchronous]
  rfl

theorem iterate_floored (synchronous : c.schedule = .synchronous) (k : Nat) :
    ((p.iteration c).iterate p.start k).floored c.epsilon
      = (Split.build c.policy p.objective c.epsilon).flooredIterate c.epsilon p.bound
          p.start k := by
  refine congrArg (Vec.floored · c.epsilon) ?_
  induction k with
  | zero => rfl
  | succ k ih =>
    rw [Function.iterate_succ_apply', ← ih]
    exact iteration_next synchronous _

/-- The iterates come close to one more update of the point that their floors come close to. -/
theorem iterates_approach (synchronous : c.schedule = .synchronous) (floor : 0 < c.epsilon)
    {m : Vec ℝ n} (inside : m ∈ box c.epsilon p.bound)
    (approaches : Approaches atTop ((Split.build c.policy p.objective c.epsilon).flooredIterate
      c.epsilon p.bound p.start) m) :
    Approaches atTop ((p.iteration c).iterate p.start) ((p.iteration c).next m) := by
  intro i
  rw [iteration_next synchronous, Split.synchronous_apply, floored_of_mem_box inside]
  have nonzero := (Split.decay_pos c.policy p.objective i floor
    (positive_of_mem_box floor inside)).ne'
  have later := approaches.coordinate _ p.bound nonzero
  refine (tendsto_add_atTop_iff_nat 1).mp (later.congr fun k => ?_)
  change _ = (p.iteration c).next ((p.iteration c).iterate p.start k) i
  rw [iteration_next synchronous, Split.synchronous_apply, iterate_floored synchronous]

theorem next_eq_self (synchronous : c.schedule = .synchronous) (floor : 0 < c.epsilon)
    {m : Vec ℝ n} (inside : m ∈ box c.epsilon p.bound) (flat : ∀ i, p.objective.slope m i = 0) :
    (p.iteration c).next m = m := by
  refine Vec.ext_apply fun i => ?_
  rw [iteration_next synchronous, Split.synchronous_eq_cap c.policy p.objective i floor,
    floored_of_mem_box inside, flat i, mul_zero, sub_zero]
  exact cap_of_allows (inside i).2

/-- Only the floor of a point matters to its update. -/
theorem next_congr (synchronous : c.schedule = .synchronous) {x y : Vec ℝ n}
    (same : x.floored c.epsilon = y.floored c.epsilon) :
    (p.iteration c).next x = (p.iteration c).next y := by
  refine Vec.ext_apply fun i => ?_
  rw [iteration_next synchronous, iteration_next synchronous, Split.synchronous_apply,
    Split.synchronous_apply, same]

/-- From a stationary start all iterates are the same update of it. -/
theorem iterate_succ_of_stationary (synchronous : c.schedule = .synchronous)
    (floor : 0 < c.epsilon) (inside : p.start ∈ box c.epsilon p.bound)
    (stationary : p.objective.Stationary c.epsilon p.bound p.start) (k : Nat) :
    (p.iteration c).iterate p.start (k + 1) = (p.iteration c).next p.start := by
  have fixed : ((p.iteration c).next p.start).floored c.epsilon = p.start := by
    rw [iteration_next synchronous]
    exact (floored_synchronous_eq_self_iff c.policy floor inside).mpr stationary
  induction k with
  | zero => rfl
  | succ k ih =>
    change (p.iteration c).next ((p.iteration c).iterate p.start (k + 1)) = _
    rw [ih]
    exact next_congr synchronous (fixed.trans (floored_of_mem_box inside).symm)

/-- A look late enough finds the residual as small as the tolerance wants it. -/
theorem large_budget_converges (valid : 1 ≤ c.checkEvery.number)
    (small : ∀ᶠ k in atTop,
      p.objective.residual ((p.iteration c).iterate p.start k) < c.tolerance n) :
    ∃ B, ∀ budget : Count ℝ, B ≤ budget.number → ∀ tracked,
      (p.solve { c with maxSteps := budget } tracked).verdict = .converged := by
  obtain ⟨K, late⟩ := eventually_atTop.mp small
  -- The first look after `K` steps.
  let k := c.checkEvery.number * (K + 1)
  have reached : K + 1 ≤ k := Nat.le_mul_of_pos_left (K + 1) valid
  refine ⟨k, fun budget enough tracked => ?_⟩
  refine (solve_converged_iff_nonempty p _ tracked).mpr ⟨k, by omega, enough, ⟨K + 1, rfl⟩, ?_⟩
  exact decide_eq_true (late k (by omega))

theorem no_late_convergence
    (large : ∀ᶠ k in atTop,
      c.tolerance n < p.objective.residual ((p.iteration c).iterate p.start k)) :
    ∃ K, ∀ budget : Count ℝ, ∀ tracked,
      let s := p.solve { c with maxSteps := budget } tracked
      s.verdict = .converged → s.steps < K := by
  obtain ⟨K, late⟩ := eventually_atTop.mp large
  refine ⟨K, fun budget tracked => ?_⟩
  intro s converged
  obtain ⟨-, -, -, passed⟩ := solve_steps_mem_passing converged
  have small : p.objective.residual ((p.iteration c).iterate p.start s.steps) < c.tolerance n :=
    of_decide_eq_true passed
  by_contra reached
  exact lt_asymm small (late s.steps (not_lt.mp reached))

/-- Along the synchronous iteration of a definite problem the residual has a limit, the one
of an update of the minimiser over the box. Below the tolerance it makes every budget from
some number on end in convergence; above, it leaves only finitely many steps at which a run
can converge. These runs are answered for every whole budget that the step counter holds. -/
theorem residual_limit_decides_convergence (symmetric : p.objective.Q.Symmetric)
    (definite : p.objective.Q.Definite) (valid : c.Valid) (synchronous : c.schedule = .synchronous)
    (room : AtLeast c.epsilon p.bound) :
    ∃ m ∈ box c.epsilon p.bound, IsMinOn p.objective.value (box c.epsilon p.bound) m ∧
      let limit := p.objective.residual ((p.iteration c).next m)
      Tendsto (fun k => p.objective.residual ((p.iteration c).iterate p.start k)) atTop (𝓝 limit) ∧
      ((∀ i, p.objective.slope m i = 0) → limit = 0) ∧
      (limit < c.tolerance n → ∃ B, ∀ budget : Count ℝ, B ≤ budget.number → ∀ tracked,
        (p.solve { c with maxSteps := budget } tracked).verdict = .converged) ∧
      (c.tolerance n < limit → ∃ K, ∀ budget : Count ℝ, ∀ tracked,
        let s := p.solve { c with maxSteps := budget } tracked
        s.verdict = .converged → s.steps < K) ∧
      (c.Steppable → ∀ N < Count.counterBound, ∀ tracked,
        p.answer? (c.withBudget N) tracked = .ok (p.solve (c.withBudget N) tracked)) := by
  have floor : 0 < c.epsilon := of_decide_eq_true valid.epsilon_pos
  obtain ⟨m, inside, least, approaches⟩ :=
    Split.flooredIterate_approaches c.policy symmetric definite floor room p.start
  have tends := (iterates_approach synchronous floor inside approaches).residual p.objective
  refine ⟨m, inside, least, tends, fun flat => ?_, fun below => ?_, fun above => ?_,
    fun steppable N held tracked => answer?_of_countable (steppable.countable_withBudget held)⟩
  · rw [next_eq_self synchronous floor inside flat, Quadratic.residual_eq_zero flat]
  · exact large_budget_converges valid.checkEvery_pos (tends.eventually_lt_const below)
  · exact no_late_convergence (tends.eventually_const_lt above)

/-- The minimum of a lone unknown lies above the floor, so that the limit is zero. -/
theorem residual_limit_decides_convergence_lone :
    let c := Config.singleStep .synchronous
    let p := lone (1 / 16) (1 / 2)
    p.objective.Q.Symmetric ∧ p.objective.Q.Definite ∧ c.Valid ∧ c.schedule = .synchronous ∧
      AtLeast c.epsilon p.bound ∧ ∃ B, ∀ budget : Count ℝ, B ≤ budget.number → ∀ tracked,
        (p.solve { c with maxSteps := budget } tracked).verdict = .converged := by
  intro c p
  have symmetric := lone_symmetric (1 / 16) (1 / 2)
  have definite : p.objective.Q.Definite := lone_definite (by norm_num)
  have valid := Config.singleStep_valid .synchronous
  have room : AtLeast c.epsilon p.bound := fun i => allows_none
  refine ⟨symmetric, definite, valid, rfl, room, ?_⟩
  obtain ⟨m, inside, least, -, limit, enough, -⟩ :=
    residual_limit_decides_convergence symmetric definite valid rfl room
  have above : (#v[8] : Vec ℝ 1) ∈ box c.epsilon p.bound := by
    refine Fin.forall_fin_one.mpr ⟨?_, allows_none⟩
    change (1 : ℝ) ≤ 8
    norm_num
  have flat : ∀ i, p.objective.slope #v[8] i = 0 := by
    rw [Fin.forall_fin_one, lone_slope]
    change (1 / 16 * 8 - 1 / 2 : ℝ) = 0
    norm_num
  have stationary : p.objective.Stationary c.epsilon p.bound #v[8] := by
    intro i a _ _
    rw [flat, zero_mul]
  have same : m = #v[8] := Quadratic.isMinOn_unique symmetric definite inside above
    least (stationary.isMinOn symmetric definite.semidefinite)
  refine enough ?_
  rw [limit (same ▸ flat), Config.singleStep_tolerance]
  norm_num

/-- Two unknowns in each other's way. The second one starts where it has no slope, and the
first one at the floor, where it still has the slope `t` and more. -/
noncomputable def crowded (t ε : ℝ) : Problem ℝ 2 where
  objective := { Q := #v[#v[t, 1], #v[1, t]], h := #v[t, ε + t * (t + t)] }
  start := #v[ε, t + t]
  bound := none

section Crowded

variable {t ε : ℝ}

theorem crowded_symmetric (t ε : ℝ) : (crowded t ε).objective.Q.Symmetric := by
  intro i j
  fin_cases i <;> fin_cases j <;> rfl

theorem crowded_definite (curved : 1 < t) : (crowded t ε).objective.Q.Definite := by
  intro v nonzero
  have form : (crowded t ε).objective.Q.form v
      = (v 0 + v 1) ^ 2 + (t - 1) * (v 0 ^ 2 + v 1 ^ 2) := by
    simp only [Mat.form, Fin.sum_univ_two]
    change v 0 * t * v 0 + v 0 * 1 * v 1 + (v 1 * 1 * v 0 + v 1 * t * v 1) = _
    ring
  rw [form]
  have := mul_pos (sub_pos.mpr curved) (Quadratic.sum_sq_pos nonzero)
  linarith [sq_nonneg (v 0 + v 1)]

theorem crowded_slope (t ε : ℝ) (x : Vec ℝ 2) :
    (crowded t ε).objective.slope x 0 = t * x 0 + x 1 - t ∧
      (crowded t ε).objective.slope x 1 = x 0 + t * x 1 - (ε + t * (t + t)) := by
  simp only [Quadratic.slope_real, Fin.sum_univ_two]
  constructor
  · change t * x 0 + 1 * x 1 - t = _
    ring
  · change 1 * x 0 + t * x 1 - (ε + t * (t + t)) = _
    ring

theorem crowded_start_mem_box (low : ε ≤ t) (positive : 0 < t) :
    (crowded t ε).start ∈ box ε (crowded t ε).bound :=
  Fin.forall_fin_two.mpr ⟨⟨le_rfl, allows_none⟩, low.trans (le_add_of_nonneg_left positive.le),
    allows_none⟩

theorem crowded_start_slope (t ε : ℝ) :
    (crowded t ε).objective.slope (crowded t ε).start 0 = t * ε + t ∧
      (crowded t ε).objective.slope (crowded t ε).start 1 = 0 := by
  obtain ⟨first, second⟩ := crowded_slope t ε (crowded t ε).start
  rw [first, second]
  constructor
  · change t * ε + (t + t) - t = _
    ring
  · change ε + t * (t + t) - (ε + t * (t + t)) = 0
    ring

theorem crowded_start_stationary (floor : 0 < ε) (positive : 0 < t) :
    (crowded t ε).objective.Stationary ε (crowded t ε).bound (crowded t ε).start := by
  obtain ⟨first, second⟩ := crowded_start_slope t ε
  refine Fin.forall_fin_two.mpr ⟨fun a above _ => ?_, fun a _ _ => ?_⟩
  · rw [first]
    change 0 ≤ (t * ε + t) * (a - ε)
    exact mul_nonneg (by positivity) (sub_nonneg.mpr above)
  · rw [second, zero_mul]

/-- An update leaves a quarter of the coordinate at the floor, or more. -/
theorem crowded_update (floor : 0 < ε) (low : ε ≤ t) :
    let s := Split.build .simple (crowded t ε).objective ε
    let x := s.synchronous ε (crowded t ε).bound (crowded t ε).start
    ε / 4 ≤ x 0 ∧ x 1 = t + t := by
  intro s x
  have positive : 0 < t := floor.trans_le low
  have unfloored := floored_of_mem_box (crowded_start_mem_box low positive)
  obtain ⟨slope_first, slope_second⟩ := crowded_start_slope t ε
  constructor
  · have decay : s.decay (crowded t ε).start 0 = (t + ε) * ε + (t + t) + t * ε := by
      rw [Split.decay_simple, Fin.sum_univ_two]
      change (max t 0 + ε) * ε + (max 1 0 + 0) * (t + t) + (max t 0 * (1 + ε) - t) = _
      rw [max_eq_left positive.le, max_eq_left zero_le_one]
      ring
    have share : (t * ε + t) / s.decay (crowded t ε).start 0 ≤ 3 / 4 := by
      have product := mul_pos positive floor
      rw [decay, div_le_iff₀ (by positivity)]
      linarith [mul_pos floor floor]
    have lost := mul_le_mul_of_nonneg_left share floor.le
    have entry : x 0 = ε - ε / s.decay (crowded t ε).start 0 * (t * ε + t) := by
      rw [Split.synchronous_eq_cap .simple _ 0 floor, unfloored, slope_first]
      rfl
    rw [entry, div_mul_eq_mul_div, mul_div_assoc]
    linarith
  · rw [Split.synchronous_eq_cap .simple _ 1 floor, unfloored, slope_second, mul_zero, sub_zero]
    rfl

/-- Each look multiplies this quarter with a slope of `t` or more. -/
theorem crowded_residual (floor : 0 < ε) (low : ε ≤ t) :
    let s := Split.build .simple (crowded t ε).objective ε
    ε / 4 * t ≤ (crowded t ε).objective.residual
      (s.synchronous ε (crowded t ε).bound (crowded t ε).start) := by
  intro s
  obtain ⟨first, second⟩ := crowded_update floor low
  let x := s.synchronous ε (crowded t ε).bound (crowded t ε).start
  have positive : 0 < t := floor.trans_le low
  have remains : 0 ≤ x 0 := by linarith
  have steep : t ≤ |(crowded t ε).objective.slope x 0| := by
    rw [(crowded_slope t ε x).1, second]
    have product := mul_nonneg positive.le remains
    exact (by linarith : t ≤ t * x 0 + (t + t) - t).trans (le_abs_self _)
  have term : ε / 4 * t ≤ x 0 * |(crowded t ε).objective.slope x 0| :=
    mul_le_mul first steep positive.le remains
  exact term.trans (Quadratic.mul_abs_slope_le_residual 0)

end Crowded

end Problem

theorem Config.standard_epsilon : (Config.standard : Config ℝ).epsilon = 1 / 1000000 := by
  change (1 / (1000000 : Int) : ℝ) = _
  norm_num

theorem Config.standard_valid : (Config.standard : Config ℝ).Valid where
  epsilon_pos := by
    rw [Config.standard_epsilon]
    exact decide_eq_true (by norm_num)
  threshold_pos := fun _ given => nomatch given
  checkEvery_pos := by decide

namespace Problem

/-- With the standard configuration but for the budget, a problem with a definite matrix
and a positive start for which no budget ends in convergence. -/
theorem crowded_never_converges :
    let c : Config ℝ := .standard
    let p := crowded 8 c.epsilon
    p.objective.Q.Symmetric ∧ p.objective.Q.Definite ∧ (∀ i, 0 < p.start i) ∧ c.Valid ∧
      c.schedule = .synchronous ∧ c.threshold = none ∧ p.bound = none ∧
      ∀ budget : Count ℝ, ∀ tracked,
        (p.solve { c with maxSteps := budget } tracked).verdict ≠ .converged := by
  intro c p
  have floor : 0 < c.epsilon := of_decide_eq_true Config.standard_valid.epsilon_pos
  have low : c.epsilon ≤ 8 := by
    rw [Config.standard_epsilon]
    norm_num
  have positive : (0 : ℝ) < 8 := by norm_num
  have definite : p.objective.Q.Definite := crowded_definite (by norm_num)
  have inside := crowded_start_mem_box low positive
  refine ⟨crowded_symmetric _ _, definite, positive_of_mem_box floor inside,
    Config.standard_valid, rfl, rfl, rfl, fun budget tracked converged => ?_⟩
  obtain ⟨k, first, -, -, passed⟩ := (solve_converged_iff_nonempty p _ tracked).mp converged
  obtain ⟨j, rfl⟩ := Nat.exists_eq_add_of_le' first
  have small : p.objective.residual ((p.iteration c).iterate p.start (j + 1)) < c.tolerance 2 :=
    of_decide_eq_true passed
  have same :=
    iterate_succ_of_stationary rfl floor inside (crowded_start_stationary floor positive) j
  have large : c.epsilon / 4 * 8 ≤ p.objective.residual ((p.iteration c).next p.start) :=
    crowded_residual floor low
  have tolerance : c.tolerance 2 = 2 * c.epsilon := rfl
  rw [same, tolerance] at small
  linarith

end Problem

end BoxQP
