import BoxQP.Proofs.SplitSigns
import BoxQP.Solve

/-!
# Positivity along a run

One iteration gives each coordinate the same ratio under either schedule; the schedules
differ only in the point at which they read it. Over the reals every such point is
positive, the coordinates that a sweep has already cut below the floor included, and the
regularised diagonal of a split keeps the growth and the decay of a coordinate positive
there. No iterate after the first leaves the positive numbers or the bound, whatever the
matrix is like.
-/

namespace BoxQP

open UpperBound

namespace Split

variable {α : Type} [Arith α] {n : Nat}

/-- The point at which an iteration from `x` reads coordinate `i`: the floored iterate,
with the coordinates before `i` already updated in a sweep. -/
def readAt (s : Split α n) (o : Schedule) (epsilon : α) (bound : Option (UpperBound α n))
    (x : Vec α n) (i : Fin n) : Vec α n :=
  match o with
  | .synchronous => x.floored epsilon
  | .gaussSeidel => s.sweepTo bound (x.floored epsilon) i.val (Nat.le_of_lt i.isLt)

theorem update_apply (s : Split α n) (o : Schedule) (epsilon : α)
    (bound : Option (UpperBound α n)) (x : Vec α n) (i : Fin n) :
    s.update o epsilon bound x i = s.coordinate bound (s.readAt o epsilon bound x i) i := by
  cases o with
  | synchronous => exact s.synchronous_apply epsilon bound x i
  | gaussSeidel => exact s.sweepTo_apply_of_lt bound (x.floored epsilon) n le_rfl i i.isLt

/-- What holds of all coordinates and of every new value read among such, a sweep keeps. -/
theorem sweepTo_forall {s : Split α n} {bound : Option (UpperBound α n)} {P : α → Prop}
    {c : Vec α n} (start : ∀ j, P (c j)) (k : Nat) (inside : k ≤ n)
    (step : ∀ x : Vec α n, (∀ j, P (x j)) → ∀ i : Fin n, i.val < k → P (s.coordinate bound x i))
    (j : Fin n) : P (s.sweepTo bound c k inside j) := by
  induction k generalizing j with
  | zero => exact start j
  | succ k ih =>
    have before := ih (Nat.le_of_lt inside) fun x holds i passed =>
      step x holds i (Nat.lt_succ_of_lt passed)
    rw [sweepTo_succ]
    by_cases here : ⟨k, inside⟩ = j
    · subst here
      rw [Vec.put_apply_self]
      exact step _ before _ (Nat.lt_succ_self k)
    · rw [Vec.put_apply_ne _ _ _ _ here]
      exact before j

end Split

variable {n : Nat} {bound : Option (UpperBound ℝ n)}

namespace UpperBound

/-- The bound is positive in every coordinate. -/
def Positive (bound : Option (UpperBound ℝ n)) : Prop := ∀ b ∈ bound, ∀ i, 0 < b.limit i

theorem Positive.cap_pos (positive : Positive bound) (i : Fin n) {u : ℝ} (above : 0 < u) :
    0 < cap bound i u := by
  cases bound with
  | none => exact above
  | some b => exact lt_min above (positive b rfl i)

end UpperBound

namespace Split

variable (p : Policy) (q : Quadratic ℝ n) {ε : ℝ} {x : Vec ℝ n}

/-- The regularisation reaches the diagonal of the negative part as well. -/
theorem le_negQ_self (i : Fin n) : ε ≤ (build p q ε).negQ i i := by
  have above := p.le_positivePart q.Q i i
  rw [negQ_real, posQ_real, if_pos rfl]
  linarith

theorem growth_pos (i : Fin n) (floor : 0 < ε) (positive : ∀ j, 0 < x j) :
    0 < (build p q ε).growth x i := by
  have product_nonneg (j : Fin n) : 0 ≤ (build p q ε).negQ i j * x j :=
    mul_nonneg (negQ_nonneg p q i j floor.le) (positive j).le
  have own : 0 < (build p q ε).negQ i i * x i :=
    mul_pos (floor.trans_le (le_negQ_self p q i)) (positive i)
  have products : 0 < ∑ j, (build p q ε).negQ i j * x j :=
    own.trans_le (Finset.single_le_sum (fun j _ => product_nonneg j) (Finset.mem_univ i))
  have rest := posH_nonneg p q i floor.le
  rw [growth_real]
  linarith

theorem coordinate_pos (i : Fin n) (floor : 0 < ε) (room : Positive bound)
    (positive : ∀ j, 0 < x j) : 0 < (build p q ε).coordinate bound x i := by
  rw [coordinate_real]
  refine room.cap_pos i (div_pos (mul_pos (positive i) ?_) ?_)
  · exact growth_pos p q i floor positive
  · exact decay_pos p q i floor positive

/-- A sweep stays positive coordinate by coordinate, although the bound may take a
coordinate below the floor. -/
theorem sweepTo_pos (floor : 0 < ε) (room : Positive bound) (positive : ∀ j, 0 < x j) (k : Nat)
    (inside : k ≤ n) (j : Fin n) : 0 < (build p q ε).sweepTo bound x k inside j := by
  refine sweepTo_forall positive k inside (fun w before i _ => ?_) j
  exact coordinate_pos p q i floor room before

theorem readAt_pos (o : Schedule) (floor : 0 < ε) (room : Positive bound) (x : Vec ℝ n)
    (i j : Fin n) : 0 < (build p q ε).readAt o ε bound x i j := by
  have start (j : Fin n) : 0 < x.floored ε j := floor.trans_le (x.le_floored ε j)
  cases o with
  | synchronous => exact start j
  | gaussSeidel => exact sweepTo_pos p q floor room start i.val (Nat.le_of_lt i.isLt) j

theorem update_pos (o : Schedule) (floor : 0 < ε) (room : Positive bound) (x : Vec ℝ n)
    (i : Fin n) : 0 < (build p q ε).update o ε bound x i := by
  rw [update_apply]
  exact coordinate_pos p q i floor room (readAt_pos p q o floor room x i)

/-- One iteration ends within the bound, whatever split it goes by. -/
theorem update_within (s : Split ℝ n) (o : Schedule) (ε : ℝ) (bound : Option (UpperBound ℝ n))
    (x : Vec ℝ n) : Within bound (s.update o ε bound x) := by
  intro i
  rw [update_apply, coordinate_real]
  exact allows_cap

end Split

namespace Problem

variable {p : Problem ℝ n} {c : Config ℝ}

/-- Along a run every coordinate is divided by a positive number, at the point at which
its iteration reads it, and becomes positive and stays within the bound. The matrix may
be any, the start of any sign, and the bound below the floor. -/
theorem iterates_positive_and_within (floor : 0 < c.epsilon) (room : Positive p.bound) :
    let s := Split.build c.policy p.objective c.epsilon
    let x := (p.iteration c).iterate p.start
    ∀ k i,
      let w := s.readAt c.schedule c.epsilon p.bound (x k) i
      x (k + 1) i = cap p.bound i (w i * s.growth w i / s.decay w i) ∧ 0 < s.decay w i ∧
        0 < x (k + 1) i ∧ Allows p.bound i (x (k + 1) i) := by
  intro s x k i w
  have step : x (k + 1) = s.update c.schedule c.epsilon p.bound (x k) := rfl
  rw [step]
  refine ⟨s.update_apply c.schedule c.epsilon p.bound (x k) i, ?_, ?_, ?_⟩
  · exact Split.decay_pos _ _ i floor (Split.readAt_pos _ _ _ floor room (x k) i)
  · exact Split.update_pos _ _ _ floor room (x k) i
  · exact s.update_within c.schedule c.epsilon p.bound (x k) i

end Problem

/-- A matrix that is neither symmetric nor semidefinite, a start of both signs, and a bound
that is below two in one coordinate. -/
noncomputable def Problem.lopsided : Problem ℝ 2 where
  objective := { Q := #v[#v[0, -1], #v[1 + 1, -1]], h := #v[-1, 1] }
  start := #v[-1, 1 + 1]
  bound := some (.each #v[1, 1 + 1])

/-- Sweeps with the floor two. -/
noncomputable def Config.wideSweeps : Config ℝ where
  epsilon := 1 + 1
  threshold := none
  maxSteps := .whole 100
  checkEvery := .whole 1
  policy := .diagonalDominance
  schedule := .gaussSeidel

theorem Config.wideSweeps_floor : 0 < wideSweeps.epsilon := add_pos one_pos one_pos

/-- A coordinate that the bound keeps below the floor stays positive. -/
theorem iterates_positive_and_within_lopsided :
    0 < Config.wideSweeps.epsilon ∧ Positive Problem.lopsided.bound ∧
      ∀ k, 0 < (Problem.lopsided.iteration .wideSweeps).iterate Problem.lopsided.start (k + 1) 0 ∧
        (Problem.lopsided.iteration .wideSweeps).iterate Problem.lopsided.start (k + 1) 0 ≤ 1 := by
  have room : Positive Problem.lopsided.bound := by
    rintro _ ⟨⟩
    exact Fin.forall_fin_two.mpr ⟨one_pos, add_pos one_pos one_pos⟩
  refine ⟨Config.wideSweeps_floor, room, fun k => ?_⟩
  obtain ⟨-, -, positive, within⟩ :=
    Problem.iterates_positive_and_within Config.wideSweeps_floor room k 0
  exact ⟨positive, (allows_some_iff _).mp within⟩

end BoxQP
