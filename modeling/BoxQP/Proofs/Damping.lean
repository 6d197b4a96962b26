import BoxQP.Proofs.BoundedRun
import BoxQP.Proofs.RestPoints

/-!
# Direction and damping of an update

A synchronous update takes each coordinate of the floored point against its slope and
leaves it in its place only where nothing or the bound stops it, whatever the policy. The
policies differ in how far they go: the positive part of the simple one is the least of
all, so that its decays are, and a larger decay shortens the step. Nothing is said here
about which policy needs fewer steps. Where the matrix has no negative entry there is
nothing to fill in, and the three policies are one.
-/

namespace BoxQP

open UpperBound

variable {n : Nat}

namespace UpperBound

variable {bound : Option (UpperBound ℝ n)} {i : Fin n} {c g r r' u v : ℝ}

theorem cap_mono (below : u ≤ v) : cap bound i u ≤ cap bound i v :=
  le_cap_iff.mpr ⟨cap_le.trans below, allows_cap⟩

/-- Of two steps against the same slope, the one on the larger scale goes further, with
the bound in the way of both. -/
theorem abs_cap_sub_le (allowed : Allows bound i c) (nonneg : 0 ≤ r) (smaller : r ≤ r') :
    |cap bound i (c - r * g) - c| ≤ |cap bound i (c - r' * g) - c| := by
  rcases le_total 0 g with rises | falls
  · have short : 0 ≤ r * g := mul_nonneg nonneg rises
    have longer : r * g ≤ r' * g := mul_le_mul_of_nonneg_right smaller rises
    rw [cap_of_allows (allowed.mono (sub_le_self c short)),
      cap_of_allows (allowed.mono (sub_le_self c (short.trans longer))), sub_sub_cancel_left,
      sub_sub_cancel_left, abs_neg, abs_neg]
    exact abs_le_abs_of_nonneg short longer
  · have short : r * g ≤ 0 := mul_nonpos_of_nonneg_of_nonpos nonneg falls
    have longer : r' * g ≤ r * g := mul_le_mul_of_nonpos_right smaller falls
    have ahead : c ≤ cap bound i (c - r * g) := le_cap_iff.mpr ⟨by linarith, allowed⟩
    have further : cap bound i (c - r * g) ≤ cap bound i (c - r' * g) := cap_mono (by linarith)
    exact abs_le_abs_of_nonneg (sub_nonneg.mpr ahead) (sub_le_sub_right further c)

end UpperBound

namespace Policy

variable (p : Policy) {Q : Mat ℝ n n}

/-- Without negative entries there is nothing to take the absolute value of or to fill
in. -/
theorem positivePart_of_nonneg (nonneg : ∀ i j, 0 ≤ Q i j) (i j : Fin n) :
    p.positivePart Q i j = Q i j := by
  have kept (k : Fin n) : max (Q i k) 0 = Q i k := max_eq_left (nonneg i k)
  cases p with
  | simple => rw [positivePart_simple, kept]
  | absValue => rw [positivePart_absValue, abs_of_nonneg (nonneg i j)]
  | diagonalDominance =>
    rw [positivePart_diagonalDominance]
    simp only [kept, sub_self, Finset.sum_const_zero, ite_self, add_zero]

end Policy

namespace Split

variable (p : Policy) {q : Quadratic ℝ n} {ε : ℝ} {c : Vec ℝ n}

theorem build_eq_of_nonneg (nonneg : ∀ i j, 0 ≤ q.Q i j) (p' : Policy) :
    build p q ε = build p' q ε := by
  have same : p.positivePart q.Q = p'.positivePart q.Q := by
    refine Vec.ext_apply fun i => Vec.ext_apply fun j => ?_
    rw [p.positivePart_of_nonneg nonneg, p'.positivePart_of_nonneg nonneg]
  rw [build, build, same]

/-- No policy has smaller decays than the simple one. -/
theorem decay_simple_le (nonneg : ∀ j, 0 ≤ c j) (i : Fin n) :
    (build .simple q ε).decay c i ≤ (build p q ε).decay c i := by
  have products : ∑ j, Policy.simple.positivePart q.Q i j * c j
      ≤ ∑ j, p.positivePart q.Q i j * c j := by
    refine Finset.sum_le_sum fun j _ => mul_le_mul_of_nonneg_right ?_ (nonneg j)
    rw [Policy.positivePart_simple]
    exact p.max_le_positivePart q.Q i j
  have rest : (build .simple q ε).negH i = (build p q ε).negH i := rfl
  rw [decay_eq, decay_eq, rest]
  linarith

variable {bound : Option (UpperBound ℝ n)} {x : Vec ℝ n}

theorem displacement_mul_slope_nonpos (floor : 0 < ε) (room : Within bound (x.floored ε))
    (i : Fin n) :
    ((build p q ε).synchronous ε bound x i - x.floored ε i) * q.slope (x.floored ε) i ≤ 0 := by
  have positive (j : Fin n) : 0 < x.floored ε j := floor.trans_le (x.le_floored ε j)
  have shrinks := decay_pos p q i floor positive
  have scale := div_pos (positive i) shrinks
  have lost := slope_mul_le (g := q.slope (x.floored ε) i) scale (between_cap (room i))
  have square := mul_nonneg (inv_pos.mpr scale).le (sq_nonneg
    (cap bound i (x.floored ε i
      - x.floored ε i / (build p q ε).decay (x.floored ε) i * q.slope (x.floored ε) i)
      - x.floored ε i))
  rw [synchronous_eq_cap p q i floor bound x, mul_comm]
  linarith

theorem displacement_eq_zero_iff (floor : 0 < ε) (room : Within bound (x.floored ε))
    (i : Fin n) :
    (build p q ε).synchronous ε bound x i - x.floored ε i = 0
      ↔ q.slope (x.floored ε) i = 0
        ∨ q.slope (x.floored ε) i < 0 ∧ Meets bound i (x.floored ε i) := by
  have positive (j : Fin n) : 0 < x.floored ε j := floor.trans_le (x.le_floored ε j)
  rw [sub_eq_zero, synchronous_apply, coordinate_eq_self_iff p floor positive i]
  constructor
  · rintro (⟨flat, -⟩ | ⟨meets, falls⟩)
    · exact Or.inl flat
    · exact falls.eq_or_lt.imp_right fun strictly => ⟨strictly, meets⟩
  · rintro (flat | ⟨falls, meets⟩)
    · exact Or.inl ⟨flat, room i⟩
    · exact Or.inr ⟨meets, falls.le⟩

theorem abs_displacement_le_simple (floor : 0 < ε) (room : Within bound (x.floored ε))
    (i : Fin n) :
    |(build p q ε).synchronous ε bound x i - x.floored ε i|
      ≤ |(build .simple q ε).synchronous ε bound x i - x.floored ε i| := by
  have positive (j : Fin n) : 0 < x.floored ε j := floor.trans_le (x.le_floored ε j)
  have shrinks := decay_pos p q i floor positive
  have shrinks_simple := decay_pos .simple q i floor positive
  have smaller : x.floored ε i / (build p q ε).decay (x.floored ε) i
      ≤ x.floored ε i / (build .simple q ε).decay (x.floored ε) i :=
    div_le_div_of_nonneg_left (positive i).le shrinks_simple
      (decay_simple_le p (fun j => (positive j).le) i)
  rw [synchronous_eq_cap p q i floor bound x, synchronous_eq_cap .simple q i floor bound x]
  exact abs_cap_sub_le (room i) (div_pos (positive i) shrinks).le smaller

end Split

/-- Problems whose splits agree are run alike. -/
theorem Problem.iteration_eq_of_build_eq {p : Problem ℝ n} {c c' : Config ℝ}
    (epsilon_eq : c'.epsilon = c.epsilon) (schedule_eq : c'.schedule = c.schedule)
    (build_eq : Split.build c'.policy p.objective c.epsilon
      = Split.build c.policy p.objective c.epsilon) :
    p.iteration c' = p.iteration c := by
  rw [iteration, iteration, epsilon_eq, schedule_eq, build_eq]

/-- Under each policy every coordinate moves against its slope, and stays exactly where it
has none or is pressed against the bound; no policy moves it further than the simple one.
For a matrix without negative entries the policies build one split and run alike. -/
theorem policies_share_direction_and_damp {q : Quadratic ℝ n} {ε : ℝ} (floor : 0 < ε)
    {x : Vec ℝ n} {bound : Option (UpperBound ℝ n)} (room : Within bound (x.floored ε)) :
    let c := x.floored ε
    let g := q.slope c
    let d (p : Policy) (i : Fin n) := (Split.build p q ε).synchronous ε bound x i - c i
    (∀ p i, d p i * g i ≤ 0) ∧
    (∀ p i, d p i = 0 ↔ g i = 0 ∨ g i < 0 ∧ Meets bound i (c i)) ∧
    (∀ p i, |d p i| ≤ |d .simple i|) ∧
    ((∀ i j, 0 ≤ q.Q i j) → ∀ p p' : Policy,
      Split.build p q ε = Split.build p' q ε ∧
      ∀ (start : Vec ℝ n) (b : Option (UpperBound ℝ n)) (config : Config ℝ) (tracked : Bool),
        let P : Problem ℝ n := { objective := q, start, bound := b }
        P.iteration { config with policy := p } = P.iteration { config with policy := p' } ∧
          P.solve { config with policy := p } tracked
            = P.solve { config with policy := p' } tracked) := by
  intro c g d
  refine ⟨fun p i => Split.displacement_mul_slope_nonpos p floor room i,
    fun p i => Split.displacement_eq_zero_iff p floor room i,
    fun p i => Split.abs_displacement_le_simple p floor room i, fun nonneg p p' => ?_⟩
  refine ⟨Split.build_eq_of_nonneg p nonneg p', fun start b config tracked => ?_⟩
  intro P
  have alike : P.iteration { config with policy := p } = P.iteration { config with policy := p' } :=
    Problem.iteration_eq_of_build_eq rfl rfl (Split.build_eq_of_nonneg p nonneg p')
  exact ⟨alike, Problem.solve_congr alike rfl rfl rfl tracked⟩

/-- A matrix with entries of both signs, a start below the floor in one coordinate and at
the bound in the other, which its slope presses on; and a matrix without negative
entries. -/
theorem policies_share_direction_and_damp_lopsided :
    let P := Problem.lopsided
    let c := P.start.floored (1 / 2)
    let d (p : Policy) (i : Fin 2) :=
      (Split.build p P.objective (1 / 2)).synchronous (1 / 2) P.bound P.start i - c i
    let q : Quadratic ℝ 2 := { Q := #v[#v[1, 1], #v[0, 1]], h := #v[1, -1] }
    (0 : ℝ) < 1 / 2 ∧ Within P.bound c ∧
      (∀ p, d p 1 = 0 ∧ 0 < d p 0 ∧ d p 0 ≤ d .simple 0) ∧
      (∀ i j, 0 ≤ q.Q i j) ∧ ∀ p p' : Policy, Split.build p q (1 / 2) = Split.build p' q (1 / 2) := by
  intro P c d q
  have floor : (0 : ℝ) < 1 / 2 := by norm_num
  have low : c 0 = 1 / 2 := by
    rw [Vec.floored_real]
    change max (-1 : ℝ) (1 / 2) = 1 / 2
    norm_num
  have high : c 1 = 1 + 1 := by
    rw [Vec.floored_real]
    change max (1 + 1 : ℝ) (1 / 2) = 1 + 1
    norm_num
  have room : Within P.bound c := by
    refine Fin.forall_fin_two.mpr ⟨(allows_some_iff _).mpr ?_, (allows_some_iff _).mpr high.le⟩
    change c 0 ≤ 1
    rw [low]
    norm_num
  have falls : P.objective.slope c 0 < 0 := by
    rw [Quadratic.slope_real, Fin.sum_univ_two, low, high]
    change 0 * (1 / 2 : ℝ) + -1 * (1 + 1) - -1 < 0
    norm_num
  have presses : P.objective.slope c 1 < 0 := by
    rw [Quadratic.slope_real, Fin.sum_univ_two, low, high]
    change (1 + 1) * (1 / 2 : ℝ) + -1 * (1 + 1) - 1 < 0
    norm_num
  have free : ¬ Meets P.bound 0 (c 0) := by
    rintro ⟨_, ⟨⟩, meets⟩
    rw [low] at meets
    change (1 / 2 : ℝ) = 1 at meets
    norm_num at meets
  obtain ⟨against, rests, damped, -⟩ :=
    policies_share_direction_and_damp (q := P.objective) floor room
  have ahead (p : Policy) : 0 < d p 0 := by
    have moves : d p 0 ≠ 0 := fun still =>
      ((rests p 0).mp still).elim falls.ne fun stopped => free stopped.2
    have upward : 0 ≤ d p 0 := nonneg_of_mul_nonpos_left (against p 0) falls
    exact upward.lt_of_ne' moves
  have nonneg : ∀ i j, 0 ≤ q.Q i j :=
    Fin.forall_fin_two.mpr ⟨Fin.forall_fin_two.mpr ⟨zero_le_one, zero_le_one⟩,
      Fin.forall_fin_two.mpr ⟨le_rfl, zero_le_one⟩⟩
  refine ⟨floor, room, fun p => ⟨?_, ahead p, ?_⟩, nonneg, fun p p' => ?_⟩
  · exact (rests p 1).mpr (Or.inr ⟨presses, _, rfl, high⟩)
  · have shorter := damped p 0
    rwa [abs_of_pos (ahead p), abs_of_pos (ahead .simple)] at shorter
  · have unbounded : Within none (P.start.floored (1 / 2)) := fun _ => allows_none
    obtain ⟨-, -, -, alike⟩ := policies_share_direction_and_damp (q := q) floor unbounded
    exact (alike nonneg p p').1

end BoxQP
