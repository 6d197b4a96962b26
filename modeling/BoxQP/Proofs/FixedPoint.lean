import BoxQP.Proofs.Optimality
import BoxQP.Proofs.SplitSigns

/-!
# Fixed points of the floored update

A point of the box is left as it is by one synchronous update and the floor after it
exactly if it is stationary. The split and its policy enter only through positive scales
of the slope, so that the fixed points are those of the objective and the box.
-/

namespace BoxQP

open UpperBound

variable {n : Nat}

/-- A number `x` of the interval is what `u` is clamped to exactly if the whole interval
lies on the far side of `x` from `u`. -/
theorem max_cap_eq_iff {bound : Option (UpperBound ℝ n)} {i : Fin n} {ε x u : ℝ}
    (above : ε ≤ x) (allowed : Allows bound i x) :
    max (cap bound i u) ε = x ↔ ∀ a, ε ≤ a → Allows bound i a → 0 ≤ (x - u) * (a - x) := by
  constructor
  · intro clamped a a_above a_allowed
    rcases le_total a x with below | beyond
    · rcases max_choice (cap bound i u) ε with same | same
      · have : x ≤ u := clamped ▸ same.symm ▸ cap_le
        exact mul_nonneg_of_nonpos_of_nonpos (by linarith) (by linarith)
      · have : a = x := by linarith
        rw [this, sub_self, mul_zero]
    · have reached : min a u ≤ cap bound i u :=
        le_cap_iff.mpr ⟨min_le_right a u, a_allowed.mono (min_le_left a u)⟩
      have capped : cap bound i u ≤ x := clamped ▸ le_max_left _ _
      rcases min_choice a u with same | same
      · have : a = x := by linarith
        rw [this, sub_self, mul_zero]
      · exact mul_nonneg (by linarith) (by linarith)
  · intro obtuse
    have inside : Allows bound i (max (cap bound i u) ε) := allows_cap.max (allowed.mono above)
    have between : Between x (max (cap bound i u) ε) u := (between_cap allowed).floor above
    have away := obtuse _ (le_max_right _ _) inside
    generalize max (cap bound i u) ε = c at between away
    -- The two products add up to the square of the distance, negated.
    have square : (c - x) * (u - c) + (x - u) * (c - x) = -(c - x) ^ 2 := by ring
    have : 0 ≤ (c - x) * (u - c) := between
    have zero : (c - x) ^ 2 = 0 := le_antisymm (by linarith) (sq_nonneg _)
    exact sub_eq_zero.mp ((pow_eq_zero_iff two_ne_zero).mp zero)

variable {q : Quadratic ℝ n} {ε : ℝ} {bound : Option (UpperBound ℝ n)} {x : Vec ℝ n}

theorem floored_synchronous_apply (p : Policy) (floor : 0 < ε) (inside : x ∈ box ε bound)
    (i : Fin n) :
    ((Split.build p q ε).synchronous ε bound x).floored ε i
      = max (cap bound i (x i - x i / (Split.build p q ε).decay x i * q.slope x i)) ε := by
  rw [Vec.floored_real, Split.synchronous_eq_cap p q i floor bound x, floored_of_mem_box inside]

theorem floored_synchronous_eq_self_iff (p : Policy) (floor : 0 < ε) (inside : x ∈ box ε bound) :
    ((Split.build p q ε).synchronous ε bound x).floored ε = x ↔ q.Stationary ε bound x := by
  have positive := positive_of_mem_box floor inside
  have coordinatewise (i : Fin n) :
      ((Split.build p q ε).synchronous ε bound x).floored ε i = x i
        ↔ ∀ a, ε ≤ a → Allows bound i a → 0 ≤ q.slope x i * (a - x i) := by
    have scale : 0 < x i / (Split.build p q ε).decay x i :=
      div_pos (positive i) (Split.decay_pos p q i floor positive)
    rw [floored_synchronous_apply p floor inside, max_cap_eq_iff (inside i).1 (inside i).2]
    simp only [sub_sub_cancel, mul_assoc, mul_nonneg_iff_of_pos_left scale]
  constructor
  · intro fixed i
    exact (coordinatewise i).mp (congrArg (fun y : Vec ℝ n => y i) fixed)
  · intro stationary
    exact Vec.ext_apply fun i => (coordinatewise i).mpr (stationary i)

/-- The fixed points of the floored update in the box are the minimisers over it, for
every policy. -/
theorem fixed_points_are_minimisers (symmetric : q.Q.Symmetric) (semidefinite : q.Q.Semidefinite)
    (floor : 0 < ε) (bound : Option (UpperBound ℝ n)) :
    (∀ p : Policy, ∀ x ∈ box ε bound,
      ((Split.build p q ε).synchronous ε bound x).floored ε = x
        ↔ IsMinOn q.value (box ε bound) x) ∧
    ∀ p p' : Policy,
      {x ∈ box ε bound | ((Split.build p q ε).synchronous ε bound x).floored ε = x}
        = {x ∈ box ε bound | ((Split.build p' q ε).synchronous ε bound x).floored ε = x} := by
  constructor
  · intro p x inside
    rw [floored_synchronous_eq_self_iff p floor inside]
    exact Quadratic.stationary_iff_isMinOn symmetric semidefinite inside
  · intro p p'
    ext x
    refine and_congr_right fun inside => ?_
    rw [floored_synchronous_eq_self_iff p floor inside,
      floored_synchronous_eq_self_iff p' floor inside]

/-- A minimiser with one coordinate inside and the other on floor and bound at once,
left as it is under every policy. -/
theorem fixed_points_are_minimisers_coupled :
    (Quadratic.coupled 0).Q.Symmetric ∧ (Quadratic.coupled 0).Q.Semidefinite ∧ (0 : ℝ) < 1 / 2 ∧
      (#v[3 / 2, 1 / 2] : Vec ℝ 2) ∈ box (1 / 2) (some (.each #v[2, 1 / 2])) ∧
      ∀ p : Policy,
        ((Split.build p (.coupled 0) (1 / 2)).synchronous (1 / 2) (some (.each #v[2, 1 / 2]))
          #v[3 / 2, 1 / 2]).floored (1 / 2) = #v[3 / 2, 1 / 2] := by
  have symmetric := Quadratic.coupled_symmetric 0
  have semidefinite := Quadratic.coupled_semidefinite
  have floor : (0 : ℝ) < 1 / 2 := by norm_num
  have inside : (#v[3 / 2, 1 / 2] : Vec ℝ 2) ∈ box (1 / 2) (some (.each #v[2, 1 / 2])) :=
    mem_box_pair_iff.mpr (by norm_num)
  have stationary : (Quadratic.coupled 0).Stationary (1 / 2) (some (.each #v[2, 1 / 2]))
      #v[3 / 2, 1 / 2] := by
    refine Quadratic.coupled_stationary_iff.mpr ⟨?_, ?_⟩
    · intro z _ _
      norm_num
    · intro z above allowed
      have flat : z = 1 / 2 := le_antisymm ((allows_some_iff _).mp allowed) above
      rw [flat, sub_self, mul_zero]
  have least := stationary.isMinOn symmetric semidefinite
  refine ⟨symmetric, semidefinite, floor, inside, fun p => ?_⟩
  exact ((fixed_points_are_minimisers symmetric semidefinite floor _).1 p _ inside).mpr least

end BoxQP
