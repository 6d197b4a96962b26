import BoxQP.Proofs.SweepDescent

/-!
# Points at rest

An update leaves a point in its place when it leaves each coordinate there. For a sweep
this is so although it reads what it has written: the coordinates are written once, so
that an unchanged end was unchanged on the way. Over the reals and above the floor a
coordinate is left in its place when it has no slope, or when it is at its bound and the
slope presses it on; neither the schedule nor the policy has a part in this. Where there
is no coordinate only the synchronous update has a result, the empty vector. Below the
floor a point that is optimal over the non-negative numbers is not at rest, but one
update moves it by a multiple of the floor at most, which depends on the rows of the
matrix alone.
-/

namespace BoxQP

open UpperBound

namespace Vec

theorem put_self {α : Type} {n : Nat} (v : Vec α n) (i : Fin n) : v.put i (v i) = v := by
  refine ext_apply fun j => ?_
  by_cases here : i = j
  · subst here
    exact put_apply_self v i (v i)
  · exact put_apply_ne v i j (v i) here

end Vec

namespace Split

variable {α : Type} [Arith α] {n : Nat} {s : Split α n} {bound : Option (UpperBound α n)}
  {c : Vec α n}

/-- A coordinate that the whole sweep leaves in its place was not moved on the way. -/
theorem sweepTo_of_fixed (fixed : s.sweepTo bound c n le_rfl = c) (k : Nat) (inside : k ≤ n) :
    s.sweepTo bound c k inside = c := by
  refine Vec.ext_apply fun i => ?_
  by_cases passed : i.val < k
  · calc s.sweepTo bound c k inside i
        = s.coordinate bound (s.sweepTo bound c i.val (Nat.le_of_lt i.isLt)) i :=
          s.sweepTo_apply_of_lt bound c k inside i passed
      _ = s.sweepTo bound c n le_rfl i := (s.sweepTo_apply_of_lt bound c n le_rfl i i.isLt).symm
      _ = c i := by rw [fixed]
  · exact s.sweepTo_apply_of_le bound c k inside i (not_lt.mp passed)

theorem sweepTo_of_coordinates_fixed (fixed : ∀ i, s.coordinate bound c i = c i) (k : Nat)
    (inside : k ≤ n) : s.sweepTo bound c k inside = c := by
  induction k with
  | zero => rfl
  | succ k ih => rw [sweepTo_succ, ih (Nat.le_of_lt inside), fixed, Vec.put_self]

theorem sweepTo_eq_self_iff :
    s.sweepTo bound c n le_rfl = c ↔ ∀ i, s.coordinate bound c i = c i := by
  constructor
  · intro fixed i
    have written := s.sweepTo_apply_of_lt bound c n le_rfl i i.isLt
    rw [sweepTo_of_fixed fixed, sweepTo_of_fixed fixed] at written
    exact written.symm
  · intro fixed
    exact sweepTo_of_coordinates_fixed fixed n le_rfl

/-- Where the floor changes nothing, both schedules leave a point in its place exactly if
every coordinate, read at the point, is left there. -/
theorem update_eq_self_iff (o : Schedule) {x : Vec α n} {epsilon : α}
    (floored : x.floored epsilon = x) :
    s.update o epsilon bound x = x ↔ ∀ i, s.coordinate bound x i = x i := by
  cases o with
  | gaussSeidel =>
    change s.sweepTo bound (x.floored epsilon) n le_rfl = x ↔ _
    rw [floored]
    exact sweepTo_eq_self_iff
  | synchronous =>
    have entry (i : Fin n) : s.synchronous epsilon bound x i = s.coordinate bound x i := by
      rw [synchronous_apply, floored]
    constructor
    · intro fixed i
      rw [← entry]
      exact congrArg (fun y : Vec α n => y i) fixed
    · intro fixed
      exact Vec.ext_apply fun i => (entry i).trans (fixed i)

end Split

variable {n : Nat} {bound : Option (UpperBound ℝ n)} {i : Fin n} {a u : ℝ}

namespace UpperBound

/-- There is a bound on coordinate `i`, and the number `a` is at it. -/
def Meets (bound : Option (UpperBound ℝ n)) (i : Fin n) (a : ℝ) : Prop :=
  ∃ b ∈ bound, a = b.limit i

theorem Meets.cap_eq (meets : Meets bound i a) (u : ℝ) : cap bound i u = min u a := by
  obtain ⟨b, rfl, rfl⟩ := meets
  rfl

theorem Meets.cap_le (meets : Meets bound i a) (u : ℝ) : cap bound i u ≤ a := by
  rw [meets.cap_eq]
  exact min_le_right u a

/-- What is cut to `a` is `a` itself, or a larger number where the bound is `a`. -/
theorem cap_eq_iff :
    cap bound i u = a ↔ u = a ∧ Allows bound i a ∨ Meets bound i a ∧ a ≤ u := by
  constructor
  · rintro rfl
    cases bound with
    | none => exact Or.inl ⟨rfl, allows_none⟩
    | some b =>
      rcases le_total u (b.limit i) with below | above
      · have kept : cap (some b) i u = u := min_eq_left below
        exact Or.inl ⟨kept.symm, allows_cap⟩
      · have cut : cap (some b) i u = b.limit i := min_eq_right above
        exact Or.inr ⟨⟨b, rfl, cut⟩, cut.trans_le above⟩
  · rintro (⟨rfl, allowed⟩ | ⟨meets, above⟩)
    · exact cap_of_allows allowed
    · rw [meets.cap_eq]
      exact min_eq_right above

end UpperBound

variable {q : Quadratic ℝ n} {ε : ℝ} {x : Vec ℝ n}

/-- A coordinate at a positive point is left in its place if nothing moves it, or if it is
at its bound and only the bound holds it. -/
theorem Split.coordinate_eq_self_iff (p : Policy) (floor : 0 < ε) (positive : ∀ j, 0 < x j)
    (i : Fin n) :
    (build p q ε).coordinate bound x i = x i
      ↔ q.slope x i = 0 ∧ Allows bound i (x i) ∨ Meets bound i (x i) ∧ q.slope x i ≤ 0 := by
  have scale : 0 < x i / (build p q ε).decay x i :=
    div_pos (positive i) (decay_pos p q i floor positive)
  rw [coordinate_real, ratio_eq p q i floor positive, cap_eq_iff]
  refine or_congr (and_congr_left' ?_) (and_congr_right' ?_)
  · rw [sub_eq_self, mul_eq_zero, or_iff_right scale.ne']
  · rw [le_sub_self_iff, ← neg_nonneg, ← mul_neg, mul_nonneg_iff_of_pos_left scale, neg_nonneg]

/-- Above the floor the two schedules and the three policies leave the same points of at
least one coordinate in their place, under any bound: those whose coordinates have no slope
or are pressed against their bound. -/
theorem schedules_share_fixed_points (nonempty : 1 ≤ n) (floor : 0 < ε)
    {bound : Option (Tensor ℝ)} (fits : ∀ t ∈ bound, Fits n t) (above : ∀ i, ε ≤ x i)
    (p : Policy) :
    let parts := Parts.stating (Split.build p q ε)
    let b := reading n bound
    let resting := ∀ i, q.slope x i = 0 ∧ Allows b i (x i) ∨ Meets b i (x i) ∧ q.slope x i ≤ 0
    (parts.update? .synchronous ε bound x = .ok x ↔ resting) ∧
      (parts.update? .gaussSeidel ε bound x = .ok x ↔ resting) := by
  intro parts b resting
  have floored : x.floored ε = x := by
    refine Vec.ext_apply fun i => ?_
    rw [Vec.floored_real]
    exact max_eq_left (above i)
  have coordinatewise : (∀ i, (Split.build p q ε).coordinate b x i = x i) ↔ resting :=
    forall_congr' fun i =>
      Split.coordinate_eq_self_iff p floor (fun j => floor.trans_le (above j)) i
  have rests (o : Schedule) : parts.update? o ε bound x = .ok x ↔ resting := by
    rw [Parts.update?_eq _ o ε nonempty fits, Except.ok.injEq]
    exact (Split.update_eq_self_iff o floored).trans coordinatewise
  exact ⟨rests .synchronous, rests .gaussSeidel⟩

/-- A point with one coordinate pressed against its bound and one without a slope. -/
theorem schedules_share_fixed_points_pressed :
    let x : Vec ℝ 2 := #v[2, 2]
    let bound : Option (Tensor ℝ) := some (.ofVec #v[2, 3])
    1 ≤ 2 ∧ (0 : ℝ) < 1 / 2 ∧ (∀ t ∈ bound, Fits 2 t) ∧ (∀ i, 1 / 2 ≤ x i) ∧
      (Quadratic.coupled 0).slope x 0 < 0 ∧ (Quadratic.coupled 0).slope x 1 = 0 ∧
      ∀ p : Policy,
        let parts := Parts.stating (Split.build p (.coupled 0) (1 / 2))
        parts.update? .synchronous (1 / 2) bound x = .ok x ∧
          parts.update? .gaussSeidel (1 / 2) bound x = .ok x := by
  intro x bound
  have floor : (0 : ℝ) < 1 / 2 := by norm_num
  let limits : UpperBound ℝ 2 := .each #v[2, 3]
  have fits : ∀ t ∈ bound, Fits 2 t := fits_toTensor (b := some limits)
  have above : ∀ i, 1 / 2 ≤ x i := by
    refine Fin.forall_fin_two.mpr ⟨?_, ?_⟩
    · change (1 : ℝ) / 2 ≤ 2
      norm_num
    · change (1 : ℝ) / 2 ≤ 2
      norm_num
  have pressed : (Quadratic.coupled 0).slope x 0 = -1 := by
    rw [Quadratic.coupled_slope]
    change (1 + 0) * (2 : ℝ) - 2 - 1 = -1
    norm_num
  have flat : (Quadratic.coupled 0).slope x 1 = 0 := by
    rw [Quadratic.coupled_slope]
    change (1 + 0) * (2 : ℝ) - 2 = 0
    norm_num
  refine ⟨one_le_two, floor, fits, above, by rw [pressed]; norm_num, flat, fun p => ?_⟩
  obtain ⟨synchronous, sweep⟩ := schedules_share_fixed_points one_le_two floor fits above p
  have resting : ∀ i, (Quadratic.coupled 0).slope x i = 0 ∧ Allows (some limits) i (x i) ∨
      Meets (some limits) i (x i) ∧ (Quadratic.coupled 0).slope x i ≤ 0 := by
    refine Fin.forall_fin_two.mpr ⟨Or.inr ⟨⟨_, rfl, rfl⟩, ?_⟩, Or.inl ⟨flat, ?_⟩⟩
    · rw [pressed]
      norm_num
    · refine (allows_some_iff _).mpr ?_
      change (2 : ℝ) ≤ 3
      norm_num
  exact ⟨synchronous.mpr resting, sweep.mpr resting⟩

/-- Without coordinates a synchronous update leaves the empty vector in its place, and
every condition on its coordinates holds, while a sweep fails. -/
theorem empty_point_rests_under_one_schedule :
    let q : Quadratic ℝ 0 := ⟨Vec.ofFn fun i => i.elim0, Vec.ofFn fun i => i.elim0⟩
    let x : Vec ℝ 0 := Vec.ofFn fun i => i.elim0
    let parts := Parts.stating (Split.build .simple q (1 / 2))
    (∀ i, 1 / 2 ≤ x i) ∧ (∀ i, q.slope x i = 0) ∧
      parts.update? .synchronous (1 / 2) none x = .ok x ∧
      parts.update? .gaussSeidel (1 / 2) none x = .error .noEntry ∧
      ¬ (parts.update? .synchronous (1 / 2) none x = .ok x ↔
        parts.update? .gaussSeidel (1 / 2) none x = .ok x) := by
  intro q x parts
  have rests : parts.update? .synchronous (1 / 2) none x = .ok x :=
    Parts.synchronous?_empty _ (1 / 2) x
  have refused : parts.update? .gaussSeidel (1 / 2) none x = .error .noEntry := rfl
  refine ⟨fun i => i.elim0, fun i => i.elim0, rests, refused, fun alike => ?_⟩
  exact nomatch refused.symm.trans (alike.mp rests)

namespace Quadratic

/-- The conditions for a minimum over the points between zero and the bound: a slope
falls only at the bound and rises only at zero. -/
def FirstOrder (q : Quadratic ℝ n) (bound : Option (UpperBound ℝ n)) (x : Vec ℝ n) : Prop :=
  ∀ i, (0 ≤ q.slope x i ∨ Meets bound i (x i)) ∧ (q.slope x i ≤ 0 ∨ x i = 0)

/-- The sizes of the entries of row `i` over what a synchronous update at least divides
by. -/
noncomputable def rowReach (q : Quadratic ℝ n) (ε : ℝ) (i : Fin n) : ℝ :=
  ∑ j, |q.Q i j| / (max (q.Q i i) 0 + ε)

/-- Raising a non-negative point to the floor changes a slope by the sizes of its row. -/
theorem abs_slope_floored_sub_le (floor : 0 < ε) (nonneg : ∀ j, 0 ≤ x j) (i : Fin n) :
    |q.slope (x.floored ε) i - q.slope x i| ≤ ε * ∑ j, |q.Q i j| := by
  have difference : q.slope (x.floored ε) i - q.slope x i
      = ∑ j, q.Q i j * (x.floored ε j - x j) := by
    simp only [slope_real, mul_sub, Finset.sum_sub_distrib]
    ring
  have raised (j : Fin n) : |x.floored ε j - x j| ≤ ε := by
    rw [Vec.floored_real, abs_of_nonneg (sub_nonneg.mpr (le_max_left _ _)), sub_le_iff_le_add]
    exact max_le (le_add_of_nonneg_left floor.le) (le_add_of_nonneg_right (nonneg j))
  calc |q.slope (x.floored ε) i - q.slope x i|
      = |∑ j, q.Q i j * (x.floored ε j - x j)| := by rw [difference]
    _ ≤ ∑ j, |q.Q i j * (x.floored ε j - x j)| := Finset.abs_sum_le_sum_abs _ _
    _ ≤ ∑ j, ε * |q.Q i j| := by
        refine Finset.sum_le_sum fun j _ => ?_
        rw [abs_mul, mul_comm ε]
        exact mul_le_mul_of_nonneg_left (raised j) (abs_nonneg _)
    _ = ε * ∑ j, |q.Q i j| := (Finset.mul_sum _ _ _).symm

/-- The same change of the slope, on the scale on which an update takes it. -/
theorem abs_scaled_slope_change_le (p : Policy) (floor : 0 < ε) (nonneg : ∀ j, 0 ≤ x j)
    (i : Fin n) :
    |x.floored ε i / (Split.build p q ε).decay (x.floored ε) i
        * (q.slope (x.floored ε) i - q.slope x i)| ≤ ε * q.rowReach ε i := by
  have positive (j : Fin n) : 0 < x.floored ε j := floor.trans_le (x.le_floored ε j)
  have shrinks := Split.decay_pos p q i floor positive
  have curvature : 0 < max (q.Q i i) 0 + ε := add_pos_of_nonneg_of_pos (le_max_right _ _) floor
  have scale_le : x.floored ε i / (Split.build p q ε).decay (x.floored ε) i
      ≤ 1 / (max (q.Q i i) 0 + ε) := by
    rw [div_le_div_iff₀ shrinks curvature, one_mul, mul_comm]
    exact Split.curvature_mul_le_decay p floor positive i
  rw [abs_mul, abs_of_pos (div_pos (positive i) shrinks)]
  calc x.floored ε i / (Split.build p q ε).decay (x.floored ε) i
        * |q.slope (x.floored ε) i - q.slope x i|
      ≤ 1 / (max (q.Q i i) 0 + ε) * (ε * ∑ j, |q.Q i j|) :=
        mul_le_mul scale_le (abs_slope_floored_sub_le floor nonneg i) (abs_nonneg _)
          (one_div_pos.mpr curvature).le
    _ = ε * q.rowReach ε i := by
        rw [rowReach, ← Finset.sum_div]
        ring

end Quadratic

theorem UpperBound.AtLeast.positive (room : AtLeast ε bound) (floor : 0 < ε) : Positive bound :=
  fun b given i => floor.trans_le (room i b given)

/-- An optimal point over the non-negative numbers below the bound is moved by one
synchronous update by the floor and the reach of its row at most, whatever the policy and
whatever the matrix. -/
theorem synchronous_moves_optimal_little (p : Policy) (floor : 0 < ε) (room : AtLeast ε bound)
    (nonneg : ∀ i, 0 ≤ x i) (within : Within bound x) (optimal : q.FirstOrder bound x)
    (i : Fin n) :
    |(Split.build p q ε).synchronous ε bound x i - x i|
      ≤ ε * (1 + ∑ j, |q.Q i j| / (max (q.Q i i) 0 + ε)) := by
  let c := x.floored ε i
  let r := c / (Split.build p q ε).decay (x.floored ε) i
  let t := r * (q.slope (x.floored ε) i - q.slope x i)
  have moved : (Split.build p q ε).synchronous ε bound x i
      = cap bound i (c - r * q.slope x i - t) := by
    rw [Split.synchronous_eq_cap p q i floor bound x]
    congr 1
    ring
  have small : |t| ≤ ε * q.rowReach ε i := Quadratic.abs_scaled_slope_change_le p floor nonneg i
  obtain ⟨t_low, t_high⟩ := abs_le.mp small
  have raised : x i ≤ c ∧ c ≤ x i + ε := by
    change x i ≤ x.floored ε i ∧ x.floored ε i ≤ x i + ε
    rw [Vec.floored_real]
    exact ⟨le_max_left _ _, max_le (le_add_of_nonneg_right floor.le)
      (le_add_of_nonneg_left (nonneg i))⟩
  have scale : 0 < r :=
    div_pos (floor.trans_le (x.le_floored ε i))
      (Split.decay_pos p q i floor fun j => floor.trans_le (x.le_floored ε j))
  have positive : 0 < (Split.build p q ε).synchronous ε bound x i :=
    Split.update_pos p q .synchronous floor (room.positive floor) x i
  change _ ≤ ε * (1 + q.rowReach ε i)
  rw [mul_one_add, abs_le]
  constructor
  · -- A slope that rises holds the coordinate at zero, which an update does not pass.
    rcases (optimal i).2 with falls | zero
    · have uphill : r * q.slope x i ≤ 0 := mul_nonpos_of_nonneg_of_nonpos scale.le falls
      have reached : x i - ε * q.rowReach ε i ≤ cap bound i (c - r * q.slope x i - t) := by
        refine le_cap_iff.mpr ⟨by linarith, (within i).mono ?_⟩
        linarith [abs_nonneg t]
      rw [moved]
      linarith
    · rw [zero]
      linarith [abs_nonneg t]
  · -- A slope that falls presses the coordinate against its bound.
    rcases (optimal i).1 with rises | meets
    · have downhill : 0 ≤ r * q.slope x i := mul_nonneg scale.le rises
      have below : cap bound i (c - r * q.slope x i - t) ≤ c - r * q.slope x i - t := cap_le
      rw [moved]
      linarith
    · have below := meets.cap_le (c - r * q.slope x i - t)
      rw [moved]
      linarith [abs_nonneg t]

/-- An optimal point with a free coordinate between zero and the floor and another one
pressed against its bound, for a matrix that is not symmetric. -/
theorem synchronous_moves_optimal_little_lopsided :
    let q := Problem.lopsided.objective
    let x : Vec ℝ 2 := #v[1 / 4, 1]
    let bound : Option (UpperBound ℝ 2) := some (.each #v[1 / 2, 1])
    (0 : ℝ) < 1 / 2 ∧ AtLeast (1 / 2) bound ∧ (∀ i, 0 ≤ x i) ∧ Within bound x ∧
      q.FirstOrder bound x ∧
      ∀ p : Policy, ∀ i, |(Split.build p q (1 / 2)).synchronous (1 / 2) bound x i - x i|
        ≤ 1 / 2 * (1 + ∑ j, |q.Q i j| / (max (q.Q i i) 0 + 1 / 2)) := by
  intro q x bound
  have floor : (0 : ℝ) < 1 / 2 := by norm_num
  have room : AtLeast (1 / 2) bound := by
    refine Fin.forall_fin_two.mpr ⟨(allows_some_iff _).mpr le_rfl, (allows_some_iff _).mpr ?_⟩
    change (1 : ℝ) / 2 ≤ 1
    norm_num
  have nonneg : ∀ i, 0 ≤ x i := by
    refine Fin.forall_fin_two.mpr ⟨?_, zero_le_one⟩
    change (0 : ℝ) ≤ 1 / 4
    norm_num
  have within : Within bound x := by
    refine Fin.forall_fin_two.mpr ⟨(allows_some_iff _).mpr ?_, (allows_some_iff _).mpr le_rfl⟩
    change (1 : ℝ) / 4 ≤ 1 / 2
    norm_num
  have flat : q.slope x 0 = 0 := by
    rw [Quadratic.slope_real, Fin.sum_univ_two]
    change 0 * (1 / 4 : ℝ) + -1 * 1 - -1 = 0
    norm_num
  have pressed : q.slope x 1 ≤ 0 := by
    rw [Quadratic.slope_real, Fin.sum_univ_two]
    change (1 + 1) * (1 / 4 : ℝ) + -1 * 1 - 1 ≤ 0
    norm_num
  have optimal : q.FirstOrder bound x :=
    Fin.forall_fin_two.mpr
      ⟨⟨Or.inl flat.ge, Or.inl flat.le⟩, Or.inr ⟨_, rfl, rfl⟩, Or.inl pressed⟩
  exact ⟨floor, room, nonneg, within, optimal,
    fun p i => synchronous_moves_optimal_little p floor room nonneg within optimal i⟩

end BoxQP
