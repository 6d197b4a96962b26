import BoxQP.Proofs.Reals
import Mathlib.Data.Real.Basic
import Mathlib.Tactic.Linarith

/-!
# The box between floor and bound

Cutting at an upper bound is described by what it lets through: the greatest number that
is allowed and not above the one that is cut. A number that is cut or floored stays
between the number it came from and any member of the box, which is all that descent
needs to know about the two clamps.
-/

namespace BoxQP

variable {n : Nat}

namespace UpperBound

/-- The number `a` is not above the bound on coordinate `i`, if there is one. -/
def Allows (bound : Option (UpperBound ℝ n)) (i : Fin n) (a : ℝ) : Prop :=
  ∀ b ∈ bound, a ≤ b.limit i

/-- The bound is nowhere below `ε`. -/
def AtLeast (ε : ℝ) (bound : Option (UpperBound ℝ n)) : Prop := ∀ i, Allows bound i ε

/-- The point is nowhere above the bound. -/
def Within (bound : Option (UpperBound ℝ n)) (y : Vec ℝ n) : Prop := ∀ i, Allows bound i (y i)

variable {bound : Option (UpperBound ℝ n)} {i : Fin n} {a c u : ℝ}

theorem Allows.mono (allowed : Allows bound i a) (below : c ≤ a) : Allows bound i c :=
  fun b given => below.trans (allowed b given)

theorem Allows.max (first : Allows bound i a) (second : Allows bound i c) :
    Allows bound i (max a c) :=
  fun b given => max_le (first b given) (second b given)

@[simp]
theorem allows_none : Allows none i a := fun _ given => nomatch given

@[simp]
theorem allows_some_iff (b : UpperBound ℝ n) : Allows (some b) i a ↔ a ≤ b.limit i := by
  constructor
  · intro allowed
    exact allowed b rfl
  · rintro below _ ⟨⟩
    exact below

theorem le_cap_iff : a ≤ cap bound i u ↔ a ≤ u ∧ Allows bound i a := by
  cases bound with
  | none => exact (and_iff_left allows_none).symm
  | some b => exact le_min_iff.trans (and_congr_right fun _ => (allows_some_iff b).symm)

theorem cap_le : cap bound i u ≤ u := (le_cap_iff.mp le_rfl).1

theorem allows_cap : Allows bound i (cap bound i u) := (le_cap_iff.mp le_rfl).2

theorem cap_of_allows (allowed : Allows bound i u) : cap bound i u = u :=
  le_antisymm cap_le (le_cap_iff.mpr ⟨le_rfl, allowed⟩)

end UpperBound

open UpperBound

/-- The points between `ε` and the bound. -/
def box (ε : ℝ) (bound : Option (UpperBound ℝ n)) : Set (Vec ℝ n) :=
  {y | ∀ i, ε ≤ y i ∧ Allows bound i (y i)}

variable {ε : ℝ} {bound : Option (UpperBound ℝ n)}

theorem positive_of_mem_box (floor : 0 < ε) {x : Vec ℝ n} (inside : x ∈ box ε bound) (i : Fin n) :
    0 < x i :=
  floor.trans_le (inside i).1

theorem floored_of_mem_box {x : Vec ℝ n} (inside : x ∈ box ε bound) : x.floored ε = x := by
  refine Vec.ext_apply fun i => ?_
  rw [Vec.floored_real]
  exact max_eq_left (inside i).1

theorem Vec.le_floored (x : Vec ℝ n) (ε : ℝ) (i : Fin n) : ε ≤ x.floored ε i := by
  rw [Vec.floored_real]
  exact le_max_right _ _

theorem floored_mem_box_iff (x : Vec ℝ n) :
    x.floored ε ∈ box ε bound ↔ Within bound (x.floored ε) := by
  constructor
  · intro inside i
    exact (inside i).2
  · intro within i
    exact ⟨x.le_floored ε i, within i⟩

theorem UpperBound.Within.floored {x : Vec ℝ n} (within : Within bound x) (room : AtLeast ε bound) :
    Within bound (x.floored ε) := by
  intro i
  rw [Vec.floored_real]
  exact (within i).max (room i)

theorem mem_box_pair_iff {a b u v : ℝ} :
    (#v[a, b] : Vec ℝ 2) ∈ box ε (some (.each #v[u, v])) ↔ (ε ≤ a ∧ a ≤ u) ∧ ε ≤ b ∧ b ≤ v := by
  refine Fin.forall_fin_two.trans ?_
  simp only [allows_some_iff]
  exact Iff.rfl

/-- The number `w` lies on the way from `c` to `u`. -/
def Between (c w u : ℝ) : Prop := 0 ≤ (w - c) * (u - w)

theorem between_cap {i : Fin n} {c u : ℝ} (allowed : Allows bound i c) :
    Between c (cap bound i u) u := by
  have low : cap bound i u ≤ u := cap_le
  by_cases above : c ≤ u
  · have high : c ≤ cap bound i u := le_cap_iff.mpr ⟨above, allowed⟩
    exact mul_nonneg (sub_nonneg.mpr high) (sub_nonneg.mpr low)
  · have kept : cap bound i u = u := cap_of_allows (allowed.mono (le_of_not_ge above))
    simp [Between, kept]

theorem Between.floor {c w u : ℝ} (between : Between c w u) (above : ε ≤ c) :
    Between c (max w ε) u := by
  by_cases high : ε ≤ w
  · rwa [max_eq_left high]
  · have low : w < ε := lt_of_not_ge high
    have under : u ≤ w := by
      by_contra higher
      have : (w - c) * (u - w) < 0 :=
        mul_neg_of_neg_of_pos (by linarith) (by linarith)
      exact absurd between (not_le.mpr this)
    rw [max_eq_right low.le]
    exact mul_nonneg_of_nonpos_of_nonpos (by linarith) (by linarith)

end BoxQP
