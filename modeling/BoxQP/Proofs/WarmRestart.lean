import BoxQP.Proofs.StoppingControls
import Mathlib.Order.Bounds.Image

/-!
# Going on from where a budget was spent

A run that has spent its budget leaves nothing but its last iterate to go on from: the
next run counts, looks and records afresh. If the first budget is made of whole periods,
the looks of the next run are due where those of one long run would be, and the two runs
together are the long one. A budget that cuts a period short gives no such promise, and
none is made for it. No law of the arithmetic is used.
-/

namespace BoxQP

variable {α : Type} {n : Nat}

/-- The values of a long run are those of its first steps and, after the iterate that they
share, those of the steps that follow. -/
theorem Iteration.valuesTo_add (it : Iteration α n) (x : Vec α n) (j k : Nat) :
    it.valuesTo x (j + k) = it.valuesTo x j ++ (it.valuesTo (it.iterate x j) k).extract 1 := by
  symm
  refine eq_valuesTo ?_ fun i reached => ?_
  · simp only [Array.size_append, Array.size_extract, valuesTo_size]
    omega
  · by_cases before : i ≤ j
    · rw [Array.getElem?_append_left (by rw [valuesTo_size]; omega), getElem?_valuesTo before]
    · obtain ⟨d, rfl⟩ : ∃ d, i = j + d := ⟨i - j, by omega⟩
      have inside : j + d - (j + 1) < min (k + 1) (k + 1) - 1 := by omega
      have place : 1 + (j + d - (j + 1)) = d := by omega
      rw [Array.getElem?_append_right (by rw [valuesTo_size]; omega), Array.getElem?_extract]
      simp only [valuesTo_size]
      rw [if_pos inside, place, getElem?_valuesTo (by omega), iterate_add]

variable [Arith α]

theorem Config.runnable?_withBudget_of_le {c : Config α} {m : Nat}
    (beyond : Count.counterBound ≤ m) (tracked : Bool) :
    (c.withBudget m).runnable? tracked = .error .countTooLarge := by
  have whole : ¬ (tracked && (c.withBudget m).maxSteps.real.isSome) = true := by
    rw [withBudget, Count.whole, Option.isSome_none, Bool.and_false]
    exact Bool.false_ne_true
  have budget : (c.withBudget m).maxSteps.comparable = false :=
    decide_eq_false (not_lt.mpr beyond)
  change (if _ then _ else _) = _
  rw [if_neg whole, budget]
  rfl

/-- The answer `s` is the one of a run that goes as far as `s₁` and then on to `s₂`. -/
structure Solution.Joins (tracked : Bool) (s₁ s₂ s : Solution α n) : Prop where
  x_eq : s.x = s₂.x
  verdict_eq : s.verdict = s₂.verdict
  residual_eq : s.residual = s₂.residual
  steps_eq : s.steps = s₁.steps + s₂.steps
  values_eq : tracked = true → ∃ v₁ v₂, s₁.values = some v₁ ∧ s₂.values = some v₂ ∧
    s.values = some (v₁ ++ v₂.extract 1)

omit [Arith α] in
/-- Two cuts of which the second starts where the first one ends. -/
theorem Solution.Cuts.joins {it : Iteration α n} {x : Vec α n} {tracked : Bool}
    {s₁ s₂ s : Solution α n} (cuts₁ : s₁.Cuts it x tracked) (cuts₂ : s₂.Cuts it s₁.x tracked)
    (cuts : s.Cuts it x tracked) (steps_eq : s.steps = s₁.steps + s₂.steps)
    (verdict_eq : s.verdict = s₂.verdict) : Solution.Joins tracked s₁ s₂ s where
  x_eq := by rw [cuts.x_eq, cuts₂.x_eq, cuts₁.x_eq, steps_eq, Iteration.iterate_add]
  verdict_eq := verdict_eq
  residual_eq := by
    rw [cuts.residual_eq, cuts₂.residual_eq, cuts.x_eq, cuts₂.x_eq, cuts₁.x_eq, steps_eq,
      Iteration.iterate_add]
  steps_eq := steps_eq
  values_eq := by
    rintro rfl
    refine ⟨_, _, cuts₁.values_eq, cuts₂.values_eq, ?_⟩
    rw [cuts.values_eq, steps_eq, Iteration.valuesTo_add, cuts₁.x_eq]
    rfl

namespace Problem

variable {p : Problem α n} {c : Config α} {m₁ : Nat}

/-- The same problem from another start. -/
def startingAt (p : Problem α n) (x : Vec α n) : Problem α n := { p with start := x }

/-- After whole periods without a pass, the passes of a long run are those of the run that
starts there, shifted. -/
theorem passing_add (aligned : c.checkEvery.number ∣ m₁)
    (none_passes : p.passing (c.withBudget m₁) = ∅) (m₂ : Nat) :
    p.passing (c.withBudget (m₁ + m₂)) = (m₁ + ·) ''
      (p.startingAt ((p.iteration c).iterate p.start m₁)).passing (c.withBudget m₂) := by
  ext k
  constructor
  · rintro ⟨first, bounded, divides, small⟩
    have later : m₁ < k := by
      by_contra within
      have passes : k ∈ p.passing (c.withBudget m₁) := ⟨first, not_lt.mp within, divides, small⟩
      exact Set.notMem_empty k (none_passes ▸ passes)
    obtain ⟨d, rfl⟩ := Nat.exists_eq_add_of_le later.le
    refine ⟨d, ⟨by omega, Nat.le_of_add_le_add_left bounded, ?_, ?_⟩, rfl⟩
    · exact (Nat.dvd_add_right aligned).mp divides
    · exact Iteration.iterate_add (p.iteration c) p.start m₁ d ▸ small
  · rintro ⟨d, ⟨first, bounded, divides, small⟩, rfl⟩
    refine ⟨by dsimp only; omega, Nat.add_le_add_left bounded m₁, Nat.dvd_add aligned divides, ?_⟩
    exact (Iteration.iterate_add (p.iteration c) p.start m₁ d).symm ▸ small

/-- Where the passes and the budget of one run are those of another one shifted, so is its
end. -/
theorem solve_of_passing_shifted {p' : Problem α n} {c' : Config α} {m : Nat}
    (shifted : p.passing c = (m + ·) '' p'.passing c')
    (budget : c.maxSteps.number = m + c'.maxSteps.number) (tracked : Bool) :
    (p.solve c tracked).steps = m + (p'.solve c' tracked).steps ∧
      (p.solve c tracked).verdict = (p'.solve c' tracked).verdict := by
  rcases p'.solve_stops c' tracked with least | ⟨none_passes, -⟩
  · have later : Monotone (m + ·) := fun _ _ earlier => Nat.add_le_add_left earlier m
    have shifted_least : IsLeast (p.passing c) (m + (p'.solve c' tracked).steps) :=
      shifted ▸ later.map_isLeast least
    obtain ⟨steps_eq, converged⟩ := solve_of_isLeast shifted_least tracked
    exact ⟨steps_eq, converged.trans (solve_of_isLeast least tracked).2.symm⟩
  · rw [none_passes, Set.image_empty] at shifted
    obtain ⟨steps_eq, spent⟩ := solve_of_passing_eq_empty shifted tracked
    obtain ⟨steps_eq', spent'⟩ := solve_of_passing_eq_empty none_passes tracked
    exact ⟨by rw [steps_eq, steps_eq', budget], spent.trans spent'.symm⟩

/-- The run from the last iterate of a spent budget of whole periods and that first run
make up the one run with both budgets. -/
theorem solve_joins (aligned : c.checkEvery.number ∣ m₁) {tracked : Bool}
    (spent : (p.solve (c.withBudget m₁) tracked).verdict = .budgetSpent) (m₂ : Nat) :
    let s₁ := p.solve (c.withBudget m₁) tracked
    s₁.steps = m₁ ∧ Solution.Joins tracked s₁ ((p.startingAt s₁.x).solve (c.withBudget m₂) tracked)
      (p.solve (c.withBudget (m₁ + m₂)) tracked) := by
  intro s₁
  have none_passes : p.passing (c.withBudget m₁) = ∅ := by
    rw [← Set.not_nonempty_iff_eq_empty, ← p.solve_converged_iff_nonempty _ tracked, spent]
    exact Verdict.noConfusion
  have whole : s₁.steps = m₁ := (solve_of_passing_eq_empty none_passes tracked).1
  have cuts₁ := p.solve_cuts (c.withBudget m₁) tracked
  have cuts₂ := (p.startingAt s₁.x).solve_cuts (c.withBudget m₂) tracked
  have cuts := p.solve_cuts (c.withBudget (m₁ + m₂)) tracked
  have shifted := passing_add aligned none_passes m₂
  have place : s₁.x = (p.iteration c).iterate p.start m₁ := whole ▸ cuts₁.x_eq
  rw [← place] at shifted
  obtain ⟨steps_eq, verdict_eq⟩ := solve_of_passing_shifted shifted rfl tracked
  exact ⟨whole, cuts₁.joins cuts₂ cuts (whole.symm ▸ steps_eq) verdict_eq⟩

end Problem

namespace Statement

variable {a : Statement α} {c : Config α} {tracked : Bool} {s₁ : Solution α n} {m₁ : Nat}

/-- The same problem as it is written for a start from `x`. -/
def restarted (a : Statement α) (x : Vec α n) : Statement α :=
  { a with start := .array (Tensor.ofVec x) }

theorem problem?_restarted {p : Problem α n} (read : a.problem? = .ok ⟨n, p⟩) (x : Vec α n) :
    (a.restarted x).problem? = .ok ⟨n, p.startingAt x⟩ := by
  obtain ⟨objective, -, bound⟩ := problem?_ok read
  change (a.objective? >>= _) = _
  rw [objective]
  change (start? p.objective (.array (Tensor.ofVec x)) >>= _) = _
  rw [start?_ofVec]
  change (bound? n a.bound >>= _) = _
  rw [bound]
  rfl

theorem steppable_of_solve? (answered : a.solve? (c.withBudget m₁) tracked = .ok ⟨n, s₁⟩) :
    c.Steppable := by
  obtain ⟨p, read, -⟩ := exists_problem_of_solve? answered
  rw [solve?_eq_map read] at answered
  obtain ⟨s, ran, -⟩ := exists_of_map_eq_ok answered
  obtain ⟨-, -, -, steppable⟩ := Config.runnable?_eq_ok_iff.mp (Problem.answer?_eq_ok_iff.mp ran).1
  exact ⟨steppable.period, steppable.threshold⟩

/-- A call that has spent a budget of whole periods is gone on with by a call that starts
at its answer: together they are answered as one call with the sum of the budgets, as long
as the step counter holds that sum; otherwise the one call is refused. -/
theorem restart_continues_run (aligned : c.checkEvery.number ∣ m₁)
    (answered : a.solve? (c.withBudget m₁) tracked = .ok ⟨n, s₁⟩)
    (spent : s₁.verdict = .budgetSpent) (m₂ : Nat) :
    (m₁ + m₂ < Count.counterBound → s₁.steps = m₁ ∧ ∃ s₂ s : Solution α n,
      (a.restarted s₁.x).solve? (c.withBudget m₂) tracked = .ok ⟨n, s₂⟩ ∧
      a.solve? (c.withBudget (m₁ + m₂)) tracked = .ok ⟨n, s⟩ ∧ Solution.Joins tracked s₁ s₂ s) ∧
    (Count.counterBound ≤ m₁ + m₂ →
      a.solve? (c.withBudget (m₁ + m₂)) tracked = .error .countTooLarge) := by
  have steppable : c.Steppable := steppable_of_solve? answered
  obtain ⟨p, read, rfl⟩ := exists_problem_of_solve? answered
  constructor
  · intro inside
    have restarted := problem?_restarted read (p.solve (c.withBudget m₁) tracked).x
    obtain ⟨whole, joins⟩ := Problem.solve_joins aligned spent m₂
    refine ⟨whole, _, _, ?_, ?_, joins⟩
    · exact solve?_of_countable restarted (steppable.countable_withBudget (by omega))
    · exact solve?_of_countable read (steppable.countable_withBudget inside)
  · intro beyond
    rw [solve?_eq_map read,
      Problem.answer?_error (Config.runnable?_withBudget_of_le beyond tracked)]
    rfl

/-- In doubles, one step from four and then three more with a history. -/
theorem restart_continues_run_unit :
    Config.watchful.checkEvery.number ∣ 1 ∧ ∃ s₁ s₂ s : Solution Float 1,
      (unit 4.0).solve? (Config.watchful.withBudget 1) true = .ok ⟨1, s₁⟩ ∧
      s₁.verdict = .budgetSpent ∧
      ((unit 4.0).restarted s₁.x).solve? (Config.watchful.withBudget 3) true = .ok ⟨1, s₂⟩ ∧
      (unit 4.0).solve? (Config.watchful.withBudget 4) true = .ok ⟨1, s⟩ ∧
      Solution.Joins true s₁ s₂ s := by
  have countable := countable_watchful (B := 1) (by decide) true
  have aligned : Config.watchful.checkEvery.number ∣ 1 := one_dvd 1
  have spent : ((Problem.unit 4.0).solve (Config.watchful.withBudget 1) true).verdict
      = .budgetSpent := by
    decide +kernel
  have answered := solve?_unit countable 4.0
  obtain ⟨-, s₂, s, again, long, joins⟩ :=
    (restart_continues_run aligned answered spent 3).1 (by decide)
  exact ⟨aligned, _, s₂, s, answered, spent, again, long, joins⟩

/-- With one step and then as many as the step counter holds the two calls are answered,
and yet the one call with the sum of the budgets is refused. -/
theorem restart_refused_beyond_counter :
    let most := Count.counterBound - 1
    Config.watchful.checkEvery.number ∣ 1 ∧ ∃ s₁ s₂ : Solution Float 1,
      (unit 4.0).solve? (Config.watchful.withBudget 1) false = .ok ⟨1, s₁⟩ ∧
      s₁.verdict = .budgetSpent ∧
      ((unit 4.0).restarted s₁.x).solve? (Config.watchful.withBudget most) false
        = .ok ⟨1, s₂⟩ ∧ s₂.verdict = .converged ∧
      (unit 4.0).solve? (Config.watchful.withBudget (1 + most)) false
        = .error .countTooLarge := by
  intro most
  have countable := countable_watchful (B := 1) (by decide) false
  have countable' := countable_watchful (B := most) (by decide) false
  have restarted := problem?_restarted (problem?_unit 4.0)
    ((Problem.unit 4.0).solve (Config.watchful.withBudget 1) false).x
  have again := solve?_of_countable restarted countable'
  refine ⟨one_dvd 1, _, _, solve?_unit countable 4.0, ?_, again, ?_, rfl⟩
  · decide +kernel
  · decide +kernel

end Statement

end BoxQP
