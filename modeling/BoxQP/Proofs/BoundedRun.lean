import BoxQP.Solve
import Mathlib.Order.Bounds.Basic

/-!
# Where a bounded run ends

A run is compared with the states that its step passes through when nothing stops it. It
ends in the first of them that has passed a look at the residual, or in the last one
that the budget allows. The values of a tracked run are followed entry by entry: every
write falls inside the array laid out for the budget. No law of the arithmetic is used.
-/

namespace BoxQP

variable {α : Type} {n : Nat}

theorem StopRule.due_iff (r : StopRule α) (k : Nat) :
    r.due k = true ↔ 1 ≤ k ∧ r.checkEvery ∣ k := by
  simp only [StopRule.due, Bool.and_eq_true, decide_eq_true_eq, beq_iff_eq, Nat.dvd_iff_mod_eq_zero]
  exact Iff.rfl

namespace Iteration

variable [Arith α] (it : Iteration α n) (r : StopRule α)

/-- A look at the residual is due after `k` steps from `x` and finds it below the
threshold. -/
def Passes (x : Vec α n) (k : Nat) : Prop :=
  r.due k = true ∧ Arith.lt (it.residual (it.iterate x k)) r.threshold = true

/-- The state after `k` steps, whether or not a run would have ended before. -/
def after (budget : Nat) (tracked : Bool) (x : Vec α n) : Nat → Progress α n
  | 0 => it.begin budget tracked x
  | k + 1 => it.advance r (after budget tracked x k)

/-- An array for `budget` steps in which the values at the first `k + 1` iterates are
written. -/
structure Recorded (budget : Nat) (x : Vec α n) (k : Nat) (values : Array α) : Prop where
  size_eq : values.size = budget + 1
  written : ∀ j ≤ k, values[j]? = some (it.value (it.iterate x j))

variable {it r} {budget : Nat} {tracked : Bool} {x : Vec α n}

theorem not_passes_zero : ¬ it.Passes r x 0 := by
  intro passes
  have := ((r.due_iff 0).mp passes.1).1
  omega

theorem after_x (k : Nat) : (it.after r budget tracked x k).x = it.iterate x k := by
  induction k with
  | zero => rfl
  | succ k ih =>
    rw [after, advance_x, ih]
    rfl

theorem after_step (k : Nat) : (it.after r budget tracked x k).step = k := by
  induction k with
  | zero => rfl
  | succ k ih => rw [after, advance_step, ih]

theorem after_converged_iff (k : Nat) :
    (it.after r budget tracked x k).converged = true ↔ it.Passes r x k := by
  cases k with
  | zero => exact ⟨fun ended => absurd ended Bool.false_ne_true, fun p => (not_passes_zero p).elim⟩
  | succ k =>
    have place : it.next (it.after r budget tracked x k).x = it.iterate x (k + 1) :=
      congrArg it.next (after_x k)
    simp only [after, advance, after_step, place, Passes]
    by_cases due : r.due (k + 1) = true
    · simp [due]
    · simp [due]

/-- Where a look is due its residual is the one of the state. -/
theorem after_lastResidual {k : Nat} (due : r.due k = true) :
    (it.after r budget tracked x k).lastResidual = some (it.residual (it.iterate x k)) := by
  cases k with
  | zero => exact absurd ((r.due_iff 0).mp due).1 (by omega)
  | succ k =>
    have place : it.next (it.after r budget tracked x k).x = it.iterate x (k + 1) :=
      congrArg it.next (after_x k)
    simp only [after, advance, after_step, place, due, if_true]

theorem advance_history (p : Progress α n) :
    (it.advance r p).history
      = p.history.map fun values => values.setIfInBounds (p.step + 1) (it.value (it.next p.x)) := by
  simp only [advance]
  split <;> rfl

theorem after_history_untracked (k : Nat) : (it.after r budget false x k).history = none := by
  induction k with
  | zero => rfl
  | succ k ih => rw [after, advance_history, ih, Option.map_none]

theorem recorded_begin :
    it.Recorded budget x 0
      ((Array.replicate (budget + 1) Arith.undefined).setIfInBounds 0 (it.value x)) where
  size_eq := by rw [Array.size_setIfInBounds, Array.size_replicate]
  written := by
    intro j first
    obtain rfl : j = 0 := by omega
    rw [Array.getElem?_setIfInBounds_self_of_lt (by simp)]
    rfl

omit [Arith α] in
/-- Writing the next value keeps those before it, as long as the budget has room for it. -/
theorem Recorded.write {k : Nat} {values : Array α} (recorded : it.Recorded budget x k values)
    (room : k + 1 ≤ budget) :
    it.Recorded budget x (k + 1)
      (values.setIfInBounds (k + 1) (it.value (it.iterate x (k + 1)))) where
  size_eq := by rw [Array.size_setIfInBounds, recorded.size_eq]
  written := by
    intro j reached
    have inside : k + 1 < values.size := by
      rw [recorded.size_eq]
      omega
    by_cases here : j = k + 1
    · subst here
      exact Array.getElem?_setIfInBounds_self_of_lt inside
    · rw [Array.getElem?_setIfInBounds_ne (Ne.symm here)]
      exact recorded.written j (by omega)

omit [Arith α] in
/-- The values up to the last step, all of them written. -/
theorem Recorded.extract {k : Nat} {values : Array α} (recorded : it.Recorded budget x k values)
    (room : k ≤ budget) :
    (values.extract 0 (k + 1)).size = k + 1 ∧
      ∀ j ≤ k, (values.extract 0 (k + 1))[j]? = some (it.value (it.iterate x j)) := by
  have size_eq := recorded.size_eq
  constructor
  · rw [Array.size_extract]
    omega
  · intro j reached
    rw [Array.getElem?_extract, if_pos (by omega), Nat.zero_add]
    exact recorded.written j reached

theorem after_history {k : Nat} (room : k ≤ budget) :
    ∃ values, (it.after r budget true x k).history = some values ∧
      it.Recorded budget x k values := by
  induction k with
  | zero => exact ⟨_, rfl, recorded_begin⟩
  | succ k ih =>
    obtain ⟨values, kept, recorded⟩ := ih (by omega)
    refine ⟨_, ?_, recorded.write room⟩
    rw [after, advance_history, kept, Option.map_some, after_step, after_x]
    rfl

/-- A run that has made `k` steps and may make `left` more ends at the first pass, or
where nothing is left. -/
theorem run_after (it : Iteration α n) (r : StopRule α) (budget : Nat) (tracked : Bool)
    (x : Vec α n) (left k : Nat) :
    ∃ m, k ≤ m ∧ m ≤ k + left ∧
      it.run r left (it.after r budget tracked x k) = it.after r budget tracked x m ∧
      (∀ j, k ≤ j → j < m → ¬ it.Passes r x j) ∧ (it.Passes r x m ∨ m = k + left) := by
  induction left generalizing k with
  | zero => exact ⟨k, by omega, by omega, rfl, by omega, Or.inr rfl⟩
  | succ left ih =>
    cases ended : (it.after r budget tracked x k).converged with
    | true =>
      refine ⟨k, by omega, by omega, run_of_converged it r _ _ ended, by omega, Or.inl ?_⟩
      exact (after_converged_iff k).mp ended
    | false =>
      obtain ⟨m, later, bounded, same, quiet, last⟩ := ih (k + 1)
      refine ⟨m, by omega, by omega, ?_, ?_, ?_⟩
      · rw [run_succ it r left _ ended]
        exact same
      · intro j from_k below
        by_cases here : j = k
        · subst here
          intro passes
          rw [(after_converged_iff j).mpr passes] at ended
          cases ended
        · exact quiet j (by omega) below
      · exact last.imp_right fun spent => by omega

end Iteration

namespace Problem

variable [Arith α]

/-- The step numbers within the budget at which the residual is looked at and found
small enough. -/
def passing (p : Problem α n) (c : Config α) : Set Nat :=
  {k | 1 ≤ k ∧ k ≤ c.maxSteps.number ∧ c.checkEvery.number ∣ k ∧
    Arith.lt (p.objective.residual ((p.iteration c).iterate p.start k)) (c.tolerance n) = true}

theorem mem_passing_iff (p : Problem α n) (c : Config α) (k : Nat) :
    k ∈ p.passing c ↔ k ≤ c.maxSteps.number ∧ (p.iteration c).Passes (c.stopRule n) p.start k := by
  constructor
  · rintro ⟨first, bounded, divides, small⟩
    exact ⟨bounded, ((c.stopRule n).due_iff k).mpr ⟨first, divides⟩, small⟩
  · rintro ⟨bounded, due, small⟩
    obtain ⟨first, divides⟩ := ((c.stopRule n).due_iff k).mp due
    exact ⟨first, bounded, divides, small⟩

/-- The iteration, the start and the rule that ends a run decide its answer. -/
theorem solve_congr {p p' : Problem α n} {c c' : Config α}
    (iteration_eq : p'.iteration c' = p.iteration c) (start_eq : p'.start = p.start)
    (stopRule_eq : c'.stopRule n = c.stopRule n) (budget_eq : c'.maxSteps = c.maxSteps)
    (tracked : Bool) : p'.solve c' tracked = p.solve c tracked := by
  have final_eq : p'.final c' tracked = p.final c tracked := by
    rw [final, final, iteration_eq, start_eq, stopRule_eq, budget_eq]
  have residual_eq : p'.objective.residual = p.objective.residual :=
    congrArg Iteration.residual iteration_eq
  rw [solve, solve, final_eq, residual_eq]

/-- The states that the run of a problem can pass through. -/
def stateAfter (p : Problem α n) (c : Config α) (tracked : Bool) (k : Nat) :
    Iteration.Progress α n :=
  (p.iteration c).after (c.stopRule n) c.maxSteps.number tracked p.start k

theorem stateAfter_history (p : Problem α n) (c : Config α) (tracked : Bool) {k : Nat}
    (room : k ≤ c.maxSteps.number) :
    (p.stateAfter c tracked k).history.isSome = tracked ∧
      ∀ values, (p.stateAfter c tracked k).history = some values →
        (p.iteration c).Recorded c.maxSteps.number p.start k values := by
  cases tracked with
  | false =>
    have none_kept : (p.stateAfter c false k).history = none := Iteration.after_history_untracked k
    rw [none_kept]
    exact ⟨rfl, fun _ kept => nomatch kept⟩
  | true =>
    have tracking : ∃ values, (p.stateAfter c true k).history = some values ∧
        (p.iteration c).Recorded c.maxSteps.number p.start k values := Iteration.after_history room
    obtain ⟨values, kept, recorded⟩ := tracking
    rw [kept]
    exact ⟨rfl, fun _ same => Option.some.inj same ▸ recorded⟩

/-- A run ends at the least passing step number, or where there is none, with its budget. -/
theorem final_eq_stateAfter (p : Problem α n) (c : Config α) (tracked : Bool) :
    ∃ m, p.final c tracked = p.stateAfter c tracked m ∧ m ≤ c.maxSteps.number ∧
      (IsLeast (p.passing c) m ∨ (p.passing c = ∅ ∧ m = c.maxSteps.number)) := by
  obtain ⟨m, -, bounded, same, quiet, last⟩ := (p.iteration c).run_after (c.stopRule n)
    c.maxSteps.number tracked p.start c.maxSteps.number 0
  have below : ∀ k ∈ p.passing c, m ≤ k := by
    intro k member
    by_contra before
    exact quiet k (Nat.zero_le k) (by omega) ((mem_passing_iff p c k).mp member).2
  refine ⟨m, same, by omega, ?_⟩
  by_cases passes : (p.iteration c).Passes (c.stopRule n) p.start m
  · exact Or.inl ⟨(mem_passing_iff p c m).mpr ⟨by omega, passes⟩, below⟩
  · have spent : m = c.maxSteps.number := by
      have := last.resolve_left passes
      omega
    refine Or.inr ⟨Set.eq_empty_iff_forall_notMem.mpr ?_, spent⟩
    intro k member
    obtain ⟨inside, passed⟩ := (mem_passing_iff p c k).mp member
    have here : k = m := by
      have := below k member
      omega
    exact passes (here ▸ passed)

theorem stateAfter_converged_iff (p : Problem α n) (c : Config α) (tracked : Bool) {k : Nat}
    (room : k ≤ c.maxSteps.number) :
    (p.stateAfter c tracked k).converged = true ↔ k ∈ p.passing c := by
  rw [mem_passing_iff]
  exact (Iteration.after_converged_iff k).trans ⟨fun passes => ⟨room, passes⟩, And.right⟩

section Answer

variable {p : Problem α n} {c : Config α} {tracked : Bool} {m : Nat}

theorem solve_steps (ended : p.final c tracked = p.stateAfter c tracked m) :
    (p.solve c tracked).steps = m := by
  change (p.final c tracked).step = m
  rw [ended]
  exact Iteration.after_step m

theorem solve_x (ended : p.final c tracked = p.stateAfter c tracked m) :
    (p.solve c tracked).x = (p.iteration c).iterate p.start m := by
  change (p.final c tracked).x = _
  rw [ended]
  exact Iteration.after_x m

theorem solve_converged_iff (ended : p.final c tracked = p.stateAfter c tracked m)
    (bounded : m ≤ c.maxSteps.number) :
    (p.solve c tracked).verdict = .converged ↔ m ∈ p.passing c := by
  rw [← p.stateAfter_converged_iff c tracked bounded, ← ended]
  change (if (p.final c tracked).converged then Verdict.converged else .budgetSpent) = _ ↔ _
  split <;> simp_all

/-- The step number of a run that converges is one that passes. -/
theorem solve_steps_mem_passing (converged : (p.solve c tracked).verdict = .converged) :
    (p.solve c tracked).steps ∈ p.passing c := by
  obtain ⟨m, ended, bounded, -⟩ := p.final_eq_stateAfter c tracked
  rw [solve_steps ended]
  exact (solve_converged_iff ended bounded).mp converged

theorem solve_x_eq_iterate (p : Problem α n) (c : Config α) (tracked : Bool) :
    (p.solve c tracked).x = (p.iteration c).iterate p.start (p.solve c tracked).steps := by
  obtain ⟨m, ended, -, -⟩ := p.final_eq_stateAfter c tracked
  rw [solve_x ended, solve_steps ended]

theorem solve_converged_iff_nonempty (p : Problem α n) (c : Config α) (tracked : Bool) :
    (p.solve c tracked).verdict = .converged ↔ (p.passing c).Nonempty := by
  obtain ⟨m, ended, bounded, stopped⟩ := p.final_eq_stateAfter c tracked
  rw [solve_converged_iff ended bounded]
  constructor
  · intro passes
    exact ⟨m, passes⟩
  · rintro ⟨k, passes⟩
    rcases stopped with least | ⟨none_passes, -⟩
    · exact least.1
    · exact absurd passes (none_passes ▸ Set.notMem_empty k)

theorem solve_stops (p : Problem α n) (c : Config α) (tracked : Bool) :
    IsLeast (p.passing c) (p.solve c tracked).steps ∨
      (p.passing c = ∅ ∧ (p.solve c tracked).steps = c.maxSteps.number) := by
  obtain ⟨m, ended, -, stopped⟩ := p.final_eq_stateAfter c tracked
  rw [solve_steps ended]
  exact stopped

theorem solve_of_isLeast {k : Nat} (least : IsLeast (p.passing c) k) (tracked : Bool) :
    (p.solve c tracked).steps = k ∧ (p.solve c tracked).verdict = .converged := by
  refine ⟨?_, (p.solve_converged_iff_nonempty c tracked).mpr ⟨k, least.1⟩⟩
  rcases p.solve_stops c tracked with stopped | ⟨none_passes, -⟩
  · exact stopped.unique least
  · exact absurd least.1 (none_passes ▸ Set.notMem_empty k)

theorem solve_of_passing_eq_empty (none_passes : p.passing c = ∅) (tracked : Bool) :
    (p.solve c tracked).steps = c.maxSteps.number ∧
      (p.solve c tracked).verdict = .budgetSpent := by
  constructor
  · rcases p.solve_stops c tracked with stopped | ⟨-, spent⟩
    · exact absurd stopped.1 (none_passes ▸ Set.notMem_empty _)
    · exact spent
  · cases ended : (p.solve c tracked).verdict with
    | budgetSpent => rfl
    | converged =>
      obtain ⟨k, passes⟩ := (p.solve_converged_iff_nonempty c tracked).mp ended
      exact absurd passes (none_passes ▸ Set.notMem_empty k)

/-- A run whose budget is a single period makes all of its steps and looks once, at the end. -/
theorem solve_one_period (p : Problem α n) (c : Config α) (tracked : Bool)
    (positive : 1 ≤ c.checkEvery.number) (period : c.maxSteps.number = c.checkEvery.number) :
    (p.solve c tracked).x = (p.iteration c).iterate p.start c.maxSteps.number ∧
      ((p.solve c tracked).verdict = .converged ↔
        Arith.lt (p.solve c tracked).residual (c.tolerance n) = true) := by
  obtain ⟨m, ended, bounded, stopped⟩ := p.final_eq_stateAfter c tracked
  have whole : m = c.maxSteps.number := by
    rcases stopped with ⟨⟨first, -, divides, -⟩, -⟩ | ⟨-, spent⟩
    · have := Nat.le_of_dvd first divides
      omega
    · exact spent
  subst whole
  have place := solve_x ended
  refine ⟨place, ?_⟩
  rw [solve_converged_iff ended bounded]
  change _ ↔ Arith.lt (p.objective.residual (p.solve c tracked).x) (c.tolerance n) = true
  rw [place]
  constructor
  · rintro ⟨-, -, -, small⟩
    exact small
  · intro small
    exact ⟨by omega, le_rfl, period ▸ Nat.dvd_refl _, small⟩

/-- Where values are answered, they are those of the first iterates up to the last one,
each written. -/
theorem solve_values (ended : p.final c tracked = p.stateAfter c tracked m)
    (bounded : m ≤ c.maxSteps.number) :
    (p.solve c tracked).values.isSome = tracked ∧
      ∀ values, (p.solve c tracked).values = some values → values.size = m + 1 ∧
        ∀ k ≤ m, values[k]? = some (p.objective.value ((p.iteration c).iterate p.start k)) := by
  have values_eq : (p.solve c tracked).values
      = (p.stateAfter c tracked m).history.map fun v => v.extract 0 (m + 1) := by
    rw [← ended, ← solve_steps ended]
    rfl
  obtain ⟨kept, recorded⟩ := p.stateAfter_history c tracked bounded
  rw [values_eq, Option.isSome_map]
  refine ⟨kept, ?_⟩
  intro values given
  obtain ⟨buffer, present, rfl⟩ := Option.map_eq_some_iff.mp given
  exact (recorded buffer present).extract bounded

end Answer

/-- What a bounded run answers: it stops at the least step number that passes and has
converged there, or else it spends its budget, all of it where it is a whole one. The
iterate, the residual and the values all belong to the step number answered, and every write
of a value falls inside the array laid out for the budget. A call has this answer where its
counts and its threshold are within the range of the step counter. -/
theorem solve_at_first_pass (p : Problem α n) (c : Config α) (tracked : Bool) :
    let s := p.solve c tracked
    let x := (p.iteration c).iterate p.start
    ((p.passing c).Nonempty → s.verdict = .converged ∧ IsLeast (p.passing c) s.steps) ∧
    (p.passing c = ∅ → s.verdict = .budgetSpent ∧ s.steps = c.maxSteps.number) ∧
    (∀ N, c.maxSteps = .whole N → s.steps ≤ N ∧ (s.verdict = .budgetSpent → s.steps = N)) ∧
    s.x = x s.steps ∧
    s.residual = p.objective.residual s.x ∧
    (s.verdict = .converged → (p.final c tracked).lastResidual = some s.residual ∧
      Arith.lt s.residual (c.tolerance n) = true) ∧
    p.final c tracked = p.stateAfter c tracked s.steps ∧
    (∀ k ≤ s.steps, ∀ buffer, (p.stateAfter c tracked k).history = some buffer →
      buffer.size = c.maxSteps.number + 1 ∧ k < buffer.size) ∧
    s.values.isSome = tracked ∧
    (∀ values, s.values = some values →
      values.size = s.steps + 1 ∧ ∀ k ≤ s.steps, values[k]? = some (p.objective.value (x k))) ∧
    (c.Countable tracked → p.answer? c tracked = .ok s) := by
  intro s x
  obtain ⟨m, ended, bounded, stopped⟩ := p.final_eq_stateAfter c tracked
  have place : s.x = x m := solve_x ended
  have converged_iff : s.verdict = .converged ↔ m ∈ p.passing c := solve_converged_iff ended bounded
  have steps_eq : s.steps = m := solve_steps ended
  rw [steps_eq]
  obtain ⟨kept, values⟩ := solve_values ended bounded
  refine ⟨?_, ?_, ?_, place, rfl, ?_, ended, ?_, kept, values, answer?_of_countable⟩
  · intro some_passes
    have least : IsLeast (p.passing c) m := by
      refine stopped.resolve_right fun none_passes => ?_
      exact Set.nonempty_iff_ne_empty.mp some_passes none_passes.1
    exact ⟨converged_iff.mpr least.1, least⟩
  · intro none_passes
    have spent : m = c.maxSteps.number := by
      refine (stopped.resolve_left fun least => ?_).2
      exact Set.notMem_empty m (none_passes ▸ least.1)
    refine ⟨?_, spent⟩
    cases verdict : s.verdict with
    | budgetSpent => rfl
    | converged => exact absurd (converged_iff.mp verdict) (none_passes ▸ Set.notMem_empty m)
  · intro N whole
    have budget : c.maxSteps.number = N := by rw [whole, Count.whole]
    refine ⟨budget ▸ bounded, fun spent => ?_⟩
    rcases stopped with least | ⟨-, last⟩
    · exact nomatch spent.symm.trans (converged_iff.mpr least.1)
    · exact last.trans budget
  · intro converged
    obtain ⟨-, due, small⟩ := (p.mem_passing_iff c m).mp (converged_iff.mp converged)
    have residual_eq : s.residual = p.objective.residual (x m) :=
      congrArg p.objective.residual place
    rw [ended, residual_eq]
    exact ⟨Iteration.after_lastResidual due, small⟩
  · intro k reached buffer present
    have size_eq := ((p.stateAfter_history c tracked (by omega)).2 buffer present).size_eq
    exact ⟨size_eq, by omega⟩

end Problem

end BoxQP
