import BoxQP.Proofs.Descent
import BoxQP.Proofs.FixedPoint
import Mathlib.Analysis.Normed.Module.Basic
import Mathlib.Topology.MetricSpace.ProperSpace
import Mathlib.Topology.Order.MonotoneConvergence

/-!
# Convergence of the synchronous iteration

For a definite matrix the floored iterates stay in a ball, because their values never
rise, and the steps between them vanish, because the values are bounded below. A cluster
point is therefore a fixed point of the floored update, that is, the one minimiser over
the box, and the iterates converge to it.
-/

namespace BoxQP

open UpperBound Filter Topology

variable {n : Nat}

namespace Mat

variable {Q : Mat ℝ n n}

theorem continuous_form (Q : Mat ℝ n n) : Continuous Q.form := by
  unfold form
  fun_prop

/-- A lower bound on the unit sphere grows with the square. -/
theorem mul_sq_norm_le_form {μ : ℝ}
    (on_sphere : ∀ u ∈ Metric.sphere (0 : Fin n → ℝ) 1, μ ≤ Q.form u) (v : Fin n → ℝ) :
    μ * ‖v‖ ^ 2 ≤ Q.form v := by
  by_cases zero : v = 0
  · rw [zero, form_zero, norm_zero]
    norm_num
  · have norm_ne : ‖v‖ ≠ 0 := norm_ne_zero_iff.mpr zero
    have unit : ‖v‖⁻¹ • v ∈ Metric.sphere (0 : Fin n → ℝ) 1 := by
      rw [mem_sphere_zero_iff_norm, norm_smul, norm_inv, norm_norm]
      exact inv_mul_cancel₀ norm_ne
    have below := on_sphere _ unit
    rw [form_smul] at below
    calc μ * ‖v‖ ^ 2
        ≤ ‖v‖⁻¹ ^ 2 * Q.form v * ‖v‖ ^ 2 := mul_le_mul_of_nonneg_right below (sq_nonneg _)
      _ = Q.form v := by field_simp

/-- A definite form has a positive least value on the unit sphere, if there is anything
on it. -/
theorem Definite.coercive (definite : Q.Definite) :
    ∃ μ > 0, ∀ v : Fin n → ℝ, μ * ‖v‖ ^ 2 ≤ Q.form v := by
  rcases (Metric.sphere (0 : Fin n → ℝ) 1).eq_empty_or_nonempty with empty | nonempty
  · refine ⟨1, one_pos, mul_sq_norm_le_form fun u on_sphere => ?_⟩
    exact absurd on_sphere (empty ▸ Set.notMem_empty u)
  · obtain ⟨least, on_sphere, minimal⟩ := (isCompact_sphere (0 : Fin n → ℝ) 1).exists_isMinOn
      nonempty Q.continuous_form.continuousOn
    have least_ne : least ≠ 0 := by
      rintro rfl
      rw [mem_sphere_zero_iff_norm, norm_zero] at on_sphere
      exact zero_ne_one on_sphere
    exact ⟨Q.form least, definite least least_ne, mul_sq_norm_le_form (isMinOn_iff.mp minimal)⟩

end Mat

namespace Quadratic

variable {q : Quadratic ℝ n}

/-- A definite objective lies above a parabola of the distance from any point. -/
theorem exists_parabola_le (symmetric : q.Q.Symmetric) (definite : q.Q.Definite) (x : Vec ℝ n) :
    ∃ μ > 0, ∃ g, ∀ y : Vec ℝ n,
      q.value x - g * ‖fun i => y i - x i‖ + 1 / 2 * (μ * ‖fun i => y i - x i‖ ^ 2)
        ≤ q.value y := by
  obtain ⟨μ, positive, coercive⟩ := definite.coercive
  refine ⟨μ, positive, ∑ i, |q.slope x i|, fun y => ?_⟩
  have steepest : -((∑ i, |q.slope x i|) * ‖fun i => y i - x i‖)
      ≤ ∑ i, q.slope x i * (y i - x i) := by
    rw [Finset.sum_mul, ← Finset.sum_neg_distrib]
    refine Finset.sum_le_sum fun i _ => ?_
    have entry : |y i - x i| ≤ ‖fun i => y i - x i‖ := norm_le_pi_norm (fun i => y i - x i) i
    have product : |q.slope x i * (y i - x i)| ≤ |q.slope x i| * ‖fun i => y i - x i‖ := by
      rw [abs_mul]
      exact mul_le_mul_of_nonneg_left entry (abs_nonneg _)
    linarith [neg_abs_le (q.slope x i * (y i - x i))]
  have curved := coercive fun i => y i - x i
  rw [value_eq_expansion symmetric x y]
  linarith

theorem exists_level_radius (symmetric : q.Q.Symmetric) (definite : q.Q.Definite) (x : Vec ℝ n) :
    ∃ r, ∀ y : Vec ℝ n, q.value y ≤ q.value x → ‖fun i => y i - x i‖ ≤ r := by
  obtain ⟨μ, positive, g, parabola⟩ := exists_parabola_le symmetric definite x
  refine ⟨2 * |g| / μ, fun y level => ?_⟩
  have below := parabola y
  have distance := norm_nonneg fun i => y i - x i
  generalize ‖fun i => y i - x i‖ = d at below distance
  rw [le_div_iff₀ positive]
  rcases distance.eq_or_lt with same | away
  · rw [← same, zero_mul]
    positivity
  · have product : d * (μ * d) ≤ d * (2 * g) := by linarith
    have slope := le_of_mul_le_mul_left product away
    linarith [le_abs_self g]

theorem exists_le_value (symmetric : q.Q.Symmetric) (definite : q.Q.Definite) :
    ∃ b, ∀ y : Vec ℝ n, b ≤ q.value y := by
  obtain ⟨μ, positive, g, parabola⟩ :=
    exists_parabola_le symmetric definite (Vector.replicate n (0 : ℝ))
  refine ⟨q.value (Vector.replicate n (0 : ℝ)) - g ^ 2 / (2 * μ), fun y => ?_⟩
  have below := parabola y
  generalize ‖fun i => y i - (Vector.replicate n (0 : ℝ)) i‖ = d at below
  have square : g ^ 2 / (2 * μ) - g * d + 1 / 2 * (μ * d ^ 2) = (μ * d - g) ^ 2 / (2 * μ) := by
    field_simp
    ring
  have : 0 ≤ (μ * d - g) ^ 2 / (2 * μ) := by positivity
  linarith

end Quadratic

/-- Vectors come to a limit, coordinate by coordinate. -/
def Approaches {ι : Type} (l : Filter ι) (c : ι → Vec ℝ n) (m : Vec ℝ n) : Prop :=
  ∀ i, Tendsto (fun k => c k i) l (𝓝 (m i))

section Limit

variable {ι : Type} {l : Filter ι} {c : ι → Vec ℝ n} {m : Vec ℝ n}

theorem Approaches.product (approaches : Approaches l c m) (row : Vec ℝ n) :
    Tendsto (fun k => ∑ j, row j * c k j) l (𝓝 (∑ j, row j * m j)) :=
  tendsto_finsetSum _ fun j _ => (approaches j).const_mul (row j)

theorem tendsto_cap (bound : Option (UpperBound ℝ n)) (i : Fin n) {u : ι → ℝ} {a : ℝ}
    (limit : Tendsto u l (𝓝 a)) : Tendsto (fun k => cap bound i (u k)) l (𝓝 (cap bound i a)) := by
  cases bound with
  | none => exact limit
  | some b => exact limit.min tendsto_const_nhds

theorem Approaches.coordinate (approaches : Approaches l c m) (s : Split ℝ n)
    (bound : Option (UpperBound ℝ n)) {i : Fin n} (nonzero : s.decay m i ≠ 0) :
    Tendsto (fun k => s.coordinate bound (c k) i) l (𝓝 (s.coordinate bound m i)) := by
  have growth : Tendsto (fun k => s.growth (c k) i) l (𝓝 (s.growth m i)) := by
    simp only [Split.growth_real]
    exact (approaches.product (s.negQ i)).add_const _
  have decay : Tendsto (fun k => s.decay (c k) i) l (𝓝 (s.decay m i)) := by
    simp only [Split.decay_real]
    exact (approaches.product (s.posQ i)).add_const _
  simp only [Split.coordinate_real]
  exact tendsto_cap bound i (((approaches i).mul growth).div decay nonzero)

theorem Approaches.mem_box [l.NeBot] {ε : ℝ} {bound : Option (UpperBound ℝ n)}
    (approaches : Approaches l c m) (inside : ∀ᶠ k in l, c k ∈ box ε bound) : m ∈ box ε bound := by
  intro i
  constructor
  · exact ge_of_tendsto (approaches i) (inside.mono fun k member => (member i).1)
  · intro b given
    exact le_of_tendsto (approaches i) (inside.mono fun k member => (member i).2 b given)

/-- Values that are bounded below can only drop by less and less. -/
theorem tendsto_zero_of_drops {f d : Nat → ℝ} {ε b : ℝ} (positive : 0 < ε) (nonneg : ∀ k, 0 ≤ d k)
    (drops : ∀ k, f (k + 1) + ε * d k ≤ f k) (below : ∀ k, b ≤ f k) : Tendsto d atTop (𝓝 0) := by
  have falling : Antitone f := by
    refine antitone_nat_of_succ_le fun k => ?_
    have lost := mul_nonneg positive.le (nonneg k)
    linarith [drops k]
  have converges := tendsto_atTop_ciInf falling ⟨b, Set.forall_mem_range.mpr below⟩
  have differences : Tendsto (fun k => (f k - f (k + 1)) / ε) atTop (𝓝 0) := by
    have := (converges.sub ((tendsto_add_atTop_iff_nat 1).mpr converges)).div_const ε
    rwa [sub_self, zero_div] at this
  refine squeeze_zero nonneg (fun k => ?_) differences
  rw [le_div_iff₀ positive]
  linarith [drops k]

end Limit

namespace Split

variable {q : Quadratic ℝ n} {ε : ℝ} {bound : Option (UpperBound ℝ n)}

theorem flooredIterate_succ_apply (s : Split ℝ n) (start : Vec ℝ n) (k : Nat) (i : Fin n) :
    s.flooredIterate ε bound start (k + 1) i
      = max (s.coordinate bound (s.flooredIterate ε bound start k) i) ε := by
  rw [flooredIterate_succ, Vec.floored_real, synchronous_apply]
  rfl

/-- The values converge, so that each coordinate moves less and less. -/
theorem flooredIterate_steps_vanish (p : Policy) (symmetric : q.Q.Symmetric)
    (definite : q.Q.Definite) (floor : 0 < ε) (room : AtLeast ε bound) (start : Vec ℝ n)
    (i : Fin n) :
    let c := (build p q ε).flooredIterate ε bound start
    Tendsto (fun k => c (k + 1) i - c k i) atTop (𝓝 0) := by
  intro c
  obtain ⟨b, below⟩ := Quadratic.exists_le_value symmetric definite
  have drops (k : Nat) : q.value (c (k + 2)) + ε * (c (k + 2)).squaredDistance (c (k + 1))
      ≤ q.value (c (k + 1)) :=
    value_flooredIterate_succ symmetric definite.semidefinite floor
      (flooredIterate_succ_mem_box _ room k)
  have distances : Tendsto (fun k => (c (k + 2)).squaredDistance (c (k + 1))) atTop (𝓝 0) :=
    tendsto_zero_of_drops floor (fun k => Vec.squaredDistance_nonneg _ _) drops
      (fun k => below (c (k + 1)))
  have squares : Tendsto (fun k => (c (k + 2) i - c (k + 1) i) ^ 2) atTop (𝓝 0) :=
    squeeze_zero (fun k => sq_nonneg _) (fun k => Vec.sq_sub_le_squaredDistance _ _ i) distances
  have roots := squares.sqrt
  simp only [Real.sqrt_sq_eq_abs, Real.sqrt_zero] at roots
  have late : Tendsto (fun k => c (k + 2) i - c (k + 1) i) atTop (𝓝 0) :=
    (tendsto_zero_iff_abs_tendsto_zero _).mpr roots
  exact (tendsto_add_atTop_iff_nat 1).mp late

/-- A cluster point of the floored iterates minimises the objective over the box. -/
theorem isMinOn_of_cluster (p : Policy) (symmetric : q.Q.Symmetric)
    (definite : q.Q.Definite) (floor : 0 < ε) (room : AtLeast ε bound) (start : Vec ℝ n)
    {l : Filter Nat} [l.NeBot] (late : l ≤ atTop) {m : Vec ℝ n}
    (approaches : Approaches l ((build p q ε).flooredIterate ε bound start) m) :
    m ∈ box ε bound ∧ IsMinOn q.value (box ε bound) m := by
  have inside : m ∈ box ε bound := by
    refine approaches.mem_box (late ?_)
    filter_upwards [eventually_ge_atTop 1] with k reached
    obtain ⟨j, rfl⟩ := Nat.exists_eq_add_of_le' reached
    exact flooredIterate_succ_mem_box _ room j
  have positive := positive_of_mem_box floor inside
  have fixed : ((build p q ε).synchronous ε bound m).floored ε = m := by
    refine Vec.ext_apply fun i => ?_
    rw [Vec.floored_real, synchronous_apply, floored_of_mem_box inside]
    have image := (approaches.coordinate (build p q ε) bound
      (decay_pos p q i floor positive).ne').max (tendsto_const_nhds (x := ε))
    have vanishing := flooredIterate_steps_vanish p symmetric definite floor room start i
    have next := (vanishing.mono_left late).add (approaches i)
    simp only [sub_add_cancel, zero_add, flooredIterate_succ_apply] at next
    exact tendsto_nhds_unique image next
  refine ⟨inside, ?_⟩
  exact ((floored_synchronous_eq_self_iff p floor inside).mp fixed).isMinOn symmetric
    definite.semidefinite

/-- The floored iterates converge to a minimiser over the box. -/
theorem flooredIterate_approaches (p : Policy) (symmetric : q.Q.Symmetric) (definite : q.Q.Definite)
    (floor : 0 < ε) (room : AtLeast ε bound) (start : Vec ℝ n) :
    ∃ m ∈ box ε bound, IsMinOn q.value (box ε bound) m ∧
      Approaches atTop ((build p q ε).flooredIterate ε bound start) m := by
  let c := (build p q ε).flooredIterate ε bound start
  let u : Nat → Fin n → ℝ := fun k i => c k i
  obtain ⟨r, radius⟩ := Quadratic.exists_level_radius symmetric definite (c 1)
  have compact := isCompact_closedBall (u 1) r
  have stays : ∀ᶠ k in atTop, u k ∈ Metric.closedBall (u 1) r := by
    filter_upwards [eventually_ge_atTop 1] with k reached
    rw [mem_closedBall_iff_norm]
    exact radius (c k) (value_flooredIterate_le symmetric definite.semidefinite floor room
      (flooredIterate_succ_mem_box _ room 0) reached)
  have minimiser {v : Fin n → ℝ} (cluster : MapClusterPt v atTop u) :
      Vec.ofFn v ∈ box ε bound ∧ IsMinOn q.value (box ε bound) (Vec.ofFn v) := by
    obtain ⟨l, late, limit⟩ := mapClusterPt_iff_ultrafilter.mp cluster
    refine isMinOn_of_cluster p symmetric definite floor room start late fun i => ?_
    rw [Vec.ofFn_apply]
    exact (tendsto_pi_nhds.mp limit) i
  obtain ⟨v, -, cluster⟩ := compact.exists_mapClusterPt (tendsto_principal.mpr stays)
  obtain ⟨inside, least⟩ := minimiser cluster
  have converges : Tendsto u atTop (𝓝 v) := by
    refine compact.tendsto_nhds_of_unique_mapClusterPt stays fun w _ other => ?_
    obtain ⟨inside_w, least_w⟩ := minimiser other
    have same := Quadratic.isMinOn_unique symmetric definite inside_w inside least_w least
    funext i
    have entry := congrArg (fun y : Vec ℝ n => y i) same
    simpa only [Vec.ofFn_apply] using entry
  refine ⟨Vec.ofFn v, inside, least, fun i => ?_⟩
  rw [Vec.ofFn_apply]
  exact (tendsto_pi_nhds.mp converges) i

end Split

/-- The floored iterates of the synchronous iteration converge to the one minimiser over
the box, from every start, for every policy. -/
theorem synchronous_run_converges {q : Quadratic ℝ n} {ε : ℝ} {bound : Option (UpperBound ℝ n)}
    (p : Policy) (symmetric : q.Q.Symmetric) (definite : q.Q.Definite) (floor : 0 < ε)
    (room : AtLeast ε bound) (start : Vec ℝ n) :
    let x := fun k => ((Split.build p q ε).synchronous ε bound)^[k] start
    let c := fun k => (x k).floored ε
    ∃ m ∈ box ε bound, IsMinOn q.value (box ε bound) m ∧
      (∀ y ∈ box ε bound, IsMinOn q.value (box ε bound) y → y = m) ∧
      ∀ η > 0, ∃ K, ∀ k ≥ K, ∀ i, |c k i - m i| < η := by
  intro x c
  obtain ⟨m, inside, least, approaches⟩ :=
    Split.flooredIterate_approaches p symmetric definite floor room start
  refine ⟨m, inside, least, ?_, ?_⟩
  · intro y inside_y least_y
    exact Quadratic.isMinOn_unique symmetric definite inside_y inside least_y least
  · intro η positive
    have near : ∀ᶠ k in atTop, ∀ i, |c k i - m i| < η := by
      refine eventually_all.mpr fun i => ?_
      filter_upwards [Metric.tendsto_nhds.mp (approaches i) η positive] with k close
      rwa [Real.dist_eq] at close
    exact eventually_atTop.mp near

/-- A limit with one coordinate on the bound and the other on the floor. -/
theorem synchronous_run_converges_coupled :
    (Quadratic.coupled 1).Q.Symmetric ∧ (Quadratic.coupled 1).Q.Definite ∧ (0 : ℝ) < 1 / 2 ∧
      AtLeast (1 / 2) (some (.each #v[5 / 8, 1] : UpperBound ℝ 2)) ∧
      ∀ η > 0, ∃ K, ∀ k ≥ K, ∀ i,
        |(Split.build .absValue (.coupled 1) (1 / 2)).flooredIterate (1 / 2)
            (some (.each #v[5 / 8, 1])) #v[-3, 4] k i - (#v[5 / 8, 1 / 2] : Vec ℝ 2) i| < η := by
  have symmetric := Quadratic.coupled_symmetric 1
  have definite := Quadratic.coupled_definite (one_pos (α := ℝ))
  have floor : (0 : ℝ) < 1 / 2 := by norm_num
  have room : AtLeast (1 / 2) (some (.each #v[5 / 8, 1] : UpperBound ℝ 2)) := by
    refine Fin.forall_fin_two.mpr ⟨(allows_some_iff _).mpr ?_, (allows_some_iff _).mpr ?_⟩
    · change (1 / 2 : ℝ) ≤ 5 / 8
      norm_num
    · change (1 / 2 : ℝ) ≤ 1
      norm_num
  have inside : (#v[5 / 8, 1 / 2] : Vec ℝ 2) ∈ box (1 / 2) (some (.each #v[5 / 8, 1])) :=
    mem_box_pair_iff.mpr (by norm_num)
  have stationary : (Quadratic.coupled 1).Stationary (1 / 2) (some (.each #v[5 / 8, 1]))
      #v[5 / 8, 1 / 2] := by
    refine Quadratic.coupled_stationary_iff.mpr ⟨?_, ?_⟩
    · intro z _ allowed
      have top : z ≤ 5 / 8 := (allows_some_iff _).mp allowed
      linarith
    · intro z above _
      linarith
  obtain ⟨m, -, -, only, limit⟩ :=
    synchronous_run_converges .absValue symmetric definite floor room #v[-3, 4]
  have found := only _ inside (stationary.isMinOn symmetric definite.semidefinite)
  rw [found]
  exact ⟨symmetric, definite, floor, room, limit⟩

end BoxQP
