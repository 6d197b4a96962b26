import BoxQP.Proofs.Acceptance
import BoxQP.Proofs.Answers
import BoxQP.Proofs.Doubles
import BoxQP.Proofs.MinimiserLoop
import Mathlib.Algebra.Divisibility.Basic

/-!
# What the stopping controls control

The budget, the threshold, the period of the looks and the history decide where a run is
cut, and nothing else: each answer belongs to one trajectory, which is fixed by the
problem, the floor, the policy and the schedule. Two runs with other controls are
compared through the sets of step numbers at which they may stop. No law of the
arithmetic is used, but where a threshold is raised, what is below it has to stay so.
-/

namespace BoxQP

/-- What is below a number is below every number that is at least as large. -/
def Arith.Ordered (α : Type) [Arith α] : Prop :=
  ∀ a b c : α, Arith.lt a b = true → Arith.le b c = true → Arith.lt a c = true

theorem Double.ordered : Arith.Ordered Float := fun _ _ _ => Double.lt_of_lt_of_le

/-- The two configurations make the same steps, whatever stops them. -/
structure Config.SameSteps {α : Type} (c c' : Config α) : Prop where
  epsilon_eq : c'.epsilon = c.epsilon
  policy_eq : c'.policy = c.policy
  schedule_eq : c'.schedule = c.schedule

variable {α : Type} {n : Nat}

namespace Iteration

variable {it : Iteration α n} {x : Vec α n}

/-- The values at the first `k + 1` iterates from `x`. -/
def valuesTo (it : Iteration α n) (x : Vec α n) (k : Nat) : Array α :=
  Array.ofFn fun j : Fin (k + 1) => it.value (it.iterate x j)

theorem valuesTo_size (k : Nat) : (it.valuesTo x k).size = k + 1 := Array.size_ofFn

theorem getElem?_valuesTo {j k : Nat} (reached : j ≤ k) :
    (it.valuesTo x k)[j]? = some (it.value (it.iterate x j)) := by
  rw [valuesTo, Array.getElem?_ofFn, dif_pos (Nat.lt_succ_of_le reached)]

/-- An array is the one of the values if it has their number and each of them. -/
theorem eq_valuesTo {values : Array α} {k : Nat} (size_eq : values.size = k + 1)
    (written : ∀ j ≤ k, values[j]? = some (it.value (it.iterate x j))) :
    values = it.valuesTo x k := by
  refine Array.ext_getElem? fun j => ?_
  by_cases reached : j ≤ k
  · rw [written j reached, getElem?_valuesTo reached]
  · rw [Array.getElem?_eq_none (by omega), Array.getElem?_eq_none (by rw [valuesTo_size]; omega)]

theorem valuesTo_extract {j k : Nat} (earlier : j ≤ k) :
    (it.valuesTo x k).extract 0 (j + 1) = it.valuesTo x j := by
  refine eq_valuesTo ?_ fun i reached => ?_
  · rw [Array.size_extract, valuesTo_size]
    omega
  · rw [Array.getElem?_extract, if_pos (by rw [valuesTo_size]; omega), Nat.zero_add,
      getElem?_valuesTo (reached.trans earlier)]

end Iteration

variable [Arith α]

/-- The answer belongs to the iterate that it counts its steps to, on the trajectory from
`x`, and its history, if one is kept, to all iterates up to there. -/
structure Solution.Cuts (it : Iteration α n) (x : Vec α n) (tracked : Bool) (s : Solution α n) :
    Prop where
  x_eq : s.x = it.iterate x s.steps
  residual_eq : s.residual = it.residual s.x
  values_eq : s.values = if tracked then some (it.valuesTo x s.steps) else none

namespace Solution.Cuts

variable {it : Iteration α n} {x : Vec α n} {tracked tracked' : Bool} {s s' : Solution α n}

omit [Arith α] in
/-- Only the history can tell apart two answers that are cut at the same place. -/
theorem eq_with_values (cuts : s.Cuts it x tracked) (cuts' : s'.Cuts it x tracked')
    (steps_eq : s'.steps = s.steps) (verdict_eq : s'.verdict = s.verdict) :
    s' = { s with values := s'.values } := by
  have x_eq : s'.x = s.x := by rw [cuts'.x_eq, cuts.x_eq, steps_eq]
  have residual_eq : s'.residual = s.residual := by rw [cuts'.residual_eq, cuts.residual_eq, x_eq]
  cases s'
  simp_all

omit [Arith α] in
theorem eq_of_tracked_eq (cuts : s.Cuts it x tracked) (cuts' : s'.Cuts it x tracked)
    (steps_eq : s'.steps = s.steps) (verdict_eq : s'.verdict = s.verdict) : s' = s := by
  rw [cuts.eq_with_values cuts' steps_eq verdict_eq, cuts'.values_eq, steps_eq, ← cuts.values_eq]

omit [Arith α] in
/-- The history of the earlier cut is the first part of the other one. -/
theorem values_extract (cuts : s.Cuts it x tracked) (cuts' : s'.Cuts it x tracked')
    (earlier : s.steps ≤ s'.steps) :
    ∀ v ∈ s.values, ∀ v' ∈ s'.values, v = v'.extract 0 (s.steps + 1) := by
  intro v kept v' kept'
  rw [cuts.values_eq] at kept
  rw [cuts'.values_eq] at kept'
  cases tracked with
  | false => cases kept
  | true =>
    cases tracked' with
    | false => cases kept'
    | true =>
      cases kept
      cases kept'
      exact (Iteration.valuesTo_extract earlier).symm

end Solution.Cuts

omit [Arith α] in
/-- The first answer has not taken more steps, and has converged if the second one has. -/
def Solution.NoLater (s' s : Solution α n) : Prop :=
  s'.steps ≤ s.steps ∧ (s.verdict = .converged → s'.verdict = .converged)

omit [Arith α] in
theorem Solution.NoLater.antisymm {s s' : Solution α n} (no_later : s'.NoLater s)
    (no_earlier : s.NoLater s') : s'.steps = s.steps ∧ s'.verdict = s.verdict := by
  refine ⟨le_antisymm no_later.1 no_earlier.1, ?_⟩
  have converged_iff : s.verdict = .converged ↔ s'.verdict = .converged :=
    ⟨no_later.2, no_earlier.2⟩
  cases ended : s.verdict with
  | converged => exact converged_iff.mp ended
  | budgetSpent =>
    cases ended' : s'.verdict with
    | budgetSpent => rfl
    | converged => exact nomatch ended.symm.trans (converged_iff.mpr ended')

namespace Problem

variable {p : Problem α n} {c c' : Config α} {tracked : Bool}

theorem iteration_eq (alike : c.SameSteps c') : p.iteration c' = p.iteration c := by
  rw [iteration, iteration, alike.epsilon_eq, alike.policy_eq, alike.schedule_eq]

theorem solve_cuts (p : Problem α n) (c : Config α) (tracked : Bool) :
    (p.solve c tracked).Cuts (p.iteration c) p.start tracked where
  x_eq := p.solve_x_eq_iterate c tracked
  residual_eq := rfl
  values_eq := by
    obtain ⟨m, ended, bounded, -⟩ := p.final_eq_stateAfter c tracked
    obtain ⟨kept, written⟩ := solve_values ended bounded
    rw [solve_steps ended]
    cases tracked with
    | false => exact Option.not_isSome_iff_eq_none.mp (by rw [kept]; exact Bool.false_ne_true)
    | true =>
      obtain ⟨values, given⟩ := Option.isSome_iff_exists.mp kept
      obtain ⟨size_eq, entries⟩ := written values given
      have same : values = (p.iteration c).valuesTo p.start m :=
        Iteration.eq_valuesTo size_eq entries
      rw [given, same, if_pos rfl]

theorem isLeast_of_converged (converged : (p.solve c tracked).verdict = .converged) :
    IsLeast (p.passing c) (p.solve c tracked).steps := by
  refine (p.solve_stops c tracked).resolve_right fun spent => ?_
  have some_passes := (p.solve_converged_iff_nonempty c tracked).mp converged
  exact Set.nonempty_iff_ne_empty.mp some_passes spent.1

/-- A step number that a run may stop at is one of every run that looks as often, asks no
less and is allowed as many steps. -/
theorem mem_passing_of_mem (alike : c.SameSteps c') {k : Nat} (passes : k ∈ p.passing c)
    (room : k ≤ c'.maxSteps.number) (period : c'.checkEvery.number ∣ c.checkEvery.number)
    (lenient : ∀ r, Arith.lt r (c.tolerance n) = true → Arith.lt r (c'.tolerance n) = true) :
    k ∈ p.passing c' := by
  obtain ⟨first, -, divides, small⟩ := passes
  refine ⟨first, room, period.trans divides, lenient _ ?_⟩
  rw [iteration_eq alike]
  exact small

/-- With more step numbers to stop at, a run of the same budget ends no later. -/
theorem noLater_of_passing_subset (budget : c'.maxSteps = c.maxSteps)
    (more : p.passing c ⊆ p.passing c') (tracked tracked' : Bool) :
    (p.solve c' tracked').NoLater (p.solve c tracked) := by
  constructor
  · rcases p.solve_stops c tracked with least | ⟨-, spent⟩
    · rcases p.solve_stops c' tracked' with least' | ⟨none_passes, -⟩
      · exact least'.2 (more least.1)
      · exact absurd (more least.1) (none_passes ▸ Set.notMem_empty _)
    · obtain ⟨m, ended, bounded, -⟩ := p.final_eq_stateAfter c' tracked'
      rw [solve_steps ended, spent, ← budget]
      exact bounded
  · intro converged
    have passes := (p.solve_converged_iff_nonempty c tracked).mp converged
    exact (p.solve_converged_iff_nonempty c' tracked').mpr (passes.mono more)

/-- A run ends where it does whether or not it keeps a history. -/
theorem solve_ends_alike (p : Problem α n) (c : Config α) (tracked tracked' : Bool) :
    (p.solve c tracked').steps = (p.solve c tracked).steps ∧
      (p.solve c tracked').verdict = (p.solve c tracked).verdict :=
  (noLater_of_passing_subset rfl subset_rfl tracked tracked').antisymm
    (noLater_of_passing_subset rfl subset_rfl tracked' tracked)

/-- A run that converges does so after the same number of steps under every budget that
allows them. -/
theorem solve_of_converged (alike : c.SameSteps c')
    (tolerance_eq : c'.tolerance n = c.tolerance n) (period_eq : c'.checkEvery = c.checkEvery)
    (converged : (p.solve c tracked).verdict = .converged)
    (room : (p.solve c tracked).steps ≤ c'.maxSteps.number) (tracked' : Bool) :
    (p.solve c' tracked').steps = (p.solve c tracked).steps ∧
      (p.solve c' tracked').verdict = (p.solve c tracked).verdict := by
  have least := isLeast_of_converged converged
  have alike' : c'.SameSteps c :=
    ⟨alike.epsilon_eq.symm, alike.policy_eq.symm, alike.schedule_eq.symm⟩
  have passes : (p.solve c tracked).steps ∈ p.passing c' :=
    mem_passing_of_mem alike least.1 room (by rw [period_eq]) fun _ small => by rwa [tolerance_eq]
  have least' : IsLeast (p.passing c') (p.solve c tracked).steps := by
    refine ⟨passes, fun k passes_k => ?_⟩
    by_contra before
    have inside : k ≤ c.maxSteps.number := by
      have := least.1.2.1
      omega
    have earlier : k ∈ p.passing c :=
      mem_passing_of_mem alike' passes_k inside (by rw [period_eq]) fun _ small => by
        rwa [← tolerance_eq]
    exact before (least.2 earlier)
  obtain ⟨steps_eq, converged'⟩ := solve_of_isLeast least' tracked'
  exact ⟨steps_eq, converged'.trans converged.symm⟩

end Problem

namespace Statement

variable {a : Statement α} {c c' : Config α} {tracked : Bool} {s : Solution α n}

/-- A problem that is read has the answer of its run. -/
theorem solve?_eq_map {p : Problem α n} (read : a.problem? = .ok ⟨n, p⟩) (c : Config α)
    (tracked : Bool) : a.solve? c tracked = (p.answer? c tracked).map (Sigma.mk n) := by
  rw [solve?, read]
  rfl

theorem solve?_of_countable {p : Problem α n} (read : a.problem? = .ok ⟨n, p⟩)
    (countable : c.Countable tracked) : a.solve? c tracked = .ok ⟨n, p.solve c tracked⟩ := by
  rw [solve?_eq_map read, Problem.answer?_of_countable countable]
  rfl

theorem solve?_of_whole {p : Problem α n} (read : a.problem? = .ok ⟨n, p⟩)
    (whole : c.maxSteps.real = none) (uncountable : ¬ c.Countable tracked) :
    a.solve? c tracked = .error .countTooLarge ∨ a.solve? c tracked = .error .wholeTooLarge := by
  rw [solve?_eq_map read]
  exact (Problem.answer?_of_whole whole uncountable).imp (congrArg _) (congrArg _)

theorem exists_problem_of_solve? (answered : a.solve? c tracked = .ok ⟨n, s⟩) :
    ∃ p : Problem α n, a.problem? = .ok ⟨n, p⟩ ∧ s = p.solve c tracked := by
  obtain ⟨m, p, read, same⟩ := solve?_ok answered
  obtain ⟨rfl, same⟩ := Sigma.mk.inj same
  exact ⟨p, read, eq_of_heq same⟩

/-- A call that differs from an answered one in nothing but its budget, its threshold, its
period and whether it keeps a history is answered as well, if its counts and its threshold
are within the range of the step counter; with a whole budget it is refused for them
otherwise. Two answers are cuts of one trajectory. Keeping a history changes nothing else; a
run that has converged answers the same under every budget that allows its steps; and a
threshold that is not smaller, or a shorter period that divides the other one, makes no run
longer and keeps it converged. -/
theorem controls_only_cut (alike : c.SameSteps c') (answered : a.solve? c tracked = .ok ⟨n, s⟩)
    (tracked' : Bool) :
    (c'.Countable tracked' → ∃ s' : Solution α n, a.solve? c' tracked' = .ok ⟨n, s'⟩) ∧
    (c'.maxSteps.real = none → ¬ c'.Countable tracked' →
      a.solve? c' tracked' = .error .countTooLarge ∨
        a.solve? c' tracked' = .error .wholeTooLarge) ∧
    ∀ s' : Solution α n, a.solve? c' tracked' = .ok ⟨n, s'⟩ →
      (∃ p : Problem α n, a.problem? = .ok ⟨n, p⟩ ∧
        s.Cuts (p.iteration c) p.start tracked ∧ s'.Cuts (p.iteration c) p.start tracked') ∧
      (s.steps ≤ s'.steps →
        ∀ v ∈ s.values, ∀ v' ∈ s'.values, v = v'.extract 0 (s.steps + 1)) ∧
      (c' = c → s' = { s with values := s'.values }) ∧
      (c'.threshold = c.threshold → c'.checkEvery = c.checkEvery → s.verdict = .converged →
        s.steps ≤ c'.maxSteps.number →
        s' = { s with values := s'.values } ∧ (tracked' = tracked → s' = s)) ∧
      (c'.maxSteps = c.maxSteps → c'.checkEvery = c.checkEvery → Arith.Ordered α →
        Arith.le (c.tolerance n) (c'.tolerance n) = true → s'.NoLater s) ∧
      (c'.maxSteps = c.maxSteps → c'.threshold = c.threshold →
        c'.checkEvery.number ∣ c.checkEvery.number → s'.NoLater s) := by
  obtain ⟨p, read, rfl⟩ := exists_problem_of_solve? answered
  refine ⟨fun countable => ⟨_, solve?_of_countable read countable⟩, solve?_of_whole read, ?_⟩
  intro s' answered'
  obtain ⟨p', read', rfl⟩ := exists_problem_of_solve? answered'
  obtain rfl : p = p' := eq_of_heq (Sigma.mk.inj (Except.ok.inj (read.symm.trans read'))).2
  have cuts := p.solve_cuts c tracked
  have cuts' : (p.solve c' tracked').Cuts (p.iteration c) p.start tracked' :=
    Problem.iteration_eq alike ▸ p.solve_cuts c' tracked'
  have tolerance_eq (same : c'.threshold = c.threshold) : c'.tolerance n = c.tolerance n := by
    rw [Config.tolerance, Config.tolerance, same, alike.epsilon_eq]
  have more (budget : c'.maxSteps = c.maxSteps)
      (period : c'.checkEvery.number ∣ c.checkEvery.number)
      (lenient : ∀ r, Arith.lt r (c.tolerance n) = true → Arith.lt r (c'.tolerance n) = true) :
      p.passing c ⊆ p.passing c' := by
    intro k passes
    exact Problem.mem_passing_of_mem alike passes (budget ▸ passes.2.1) period lenient
  refine ⟨⟨p, read, cuts, cuts'⟩, cuts.values_extract cuts', ?_, ?_, ?_, ?_⟩
  · rintro rfl
    obtain ⟨steps_eq, verdict_eq⟩ := p.solve_ends_alike c' tracked tracked'
    exact cuts.eq_with_values cuts' steps_eq verdict_eq
  · intro threshold_eq period_eq converged room
    obtain ⟨steps_eq, verdict_eq⟩ :=
      Problem.solve_of_converged alike (tolerance_eq threshold_eq) period_eq converged room tracked'
    refine ⟨cuts.eq_with_values cuts' steps_eq verdict_eq, ?_⟩
    rintro rfl
    exact cuts.eq_of_tracked_eq cuts' steps_eq verdict_eq
  · intro budget period_eq ordered larger
    have period : c'.checkEvery.number ∣ c.checkEvery.number := by rw [period_eq]
    exact Problem.noLater_of_passing_subset budget
      (more budget period fun r small => ordered r _ _ small larger) tracked tracked'
  · intro budget threshold_eq period
    refine Problem.noLater_of_passing_subset budget ?_ tracked tracked'
    refine more budget period fun r small => ?_
    rwa [tolerance_eq threshold_eq]

end Statement

/-- One unknown in doubles, with its minimum at one. -/
def Problem.unit (x : Float) : Problem Float 1 where
  objective := { Q := #v[#v[1]], h := #v[1] }
  start := #v[x]
  bound := none

/-- A few steps, with a look after each of them. -/
def Config.watchful : Config Float :=
  { Config.standard with maxSteps := .whole 4, checkEvery := .whole 1 }

namespace Statement

/-- The problem in arrays. -/
def unit (x : Float) : Statement Float := ofVectors (Problem.unit x).objective (some #v[x]) none

theorem problem?_unit (x : Float) : (unit x).problem? = .ok ⟨1, Problem.unit x⟩ := rfl

theorem solve?_unit {c : Config Float} {tracked : Bool} (countable : c.Countable tracked)
    (x : Float) : (unit x).solve? c tracked = .ok ⟨1, (Problem.unit x).solve c tracked⟩ :=
  solve?_of_countable (problem?_unit x) countable

theorem countable_watchful {B : Nat} (inside : B < Count.counterBound) (tracked : Bool) :
    (Config.watchful.withBudget B).Countable tracked :=
  have steppable : Config.watchful.Steppable := ⟨rfl, fun _ given => nomatch given⟩
  steppable.countable_withBudget inside

/-- With a look after every second step a run from four converges, and so it does no later
with one after each. -/
theorem controls_only_cut_watchful :
    let c : Config Float := { Config.watchful with checkEvery := .whole 2 }
    c.SameSteps .watchful ∧ ∃ s s' : Solution Float 1,
      (unit 4.0).solve? c true = .ok ⟨1, s⟩ ∧ (unit 4.0).solve? .watchful false = .ok ⟨1, s'⟩ ∧
      s.verdict = .converged ∧ s'.NoLater s := by
  intro c
  have alike : c.SameSteps .watchful := ⟨rfl, rfl, rfl⟩
  have steppable : c.Steppable := ⟨rfl, fun _ given => nomatch given⟩
  have countable : c.Countable true := steppable.countable_withBudget (B := 4) (by decide)
  have answered := solve?_unit countable 4.0
  obtain ⟨answers, -, both⟩ := controls_only_cut alike answered false
  obtain ⟨s', answered'⟩ := answers (countable_watchful (B := 4) (by decide) false)
  obtain ⟨-, -, -, -, -, oftener⟩ := both s' answered'
  refine ⟨alike, _, s', answered, answered', by decide +kernel, ?_⟩
  exact oftener rfl rfl (one_dvd 2)

/-- A run that starts at the minimum converges after one step, and yet the same call is
refused with a budget that the step counter does not hold. -/
theorem converged_refused_beyond_counter :
    ∃ s : Solution Float 1, (unit 1.0).solve? .watchful false = .ok ⟨1, s⟩ ∧
      s.verdict = .converged ∧ s.steps = 1 ∧ 1 ≤ Count.counterBound ∧
      (unit 1.0).solve? (Config.watchful.withBudget Count.counterBound) false
        = .error .countTooLarge := by
  refine ⟨_, solve?_unit (countable_watchful (B := 4) (by decide) false) 1.0, ?_, ?_, ?_, ?_⟩
  · decide +kernel
  · decide +kernel
  · decide +kernel
  · rfl

end Statement

end BoxQP
