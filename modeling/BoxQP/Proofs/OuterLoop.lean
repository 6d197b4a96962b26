import BoxQP.Proofs.Drivers

/-!
# How the outer loop ends

The outer loop goes on while its minimiser is not done, nothing is wrong and its limit
allows a step. Two budgets, the flag of the minimiser and the look at the iterate that
entered the last step compete to end it. The loop is compared with the states that it
passes through when nothing stops it: it ends in the first one in which it would not go
on, or at its limit, and the result it answers tells which. No law of the arithmetic is
used, and entries may be infinite or undefined.
-/

namespace BoxQP

open UpperBound

variable {α : Type} {n : Nat}

namespace Minimise

namespace Result

@[simp]
theorem ofOutcome_inj {o o' : Minimiser.Outcome} : ofOutcome o = ofOutcome o' ↔ o = o' := by
  cases o <;> cases o' <;> simp [ofOutcome]

@[simp]
theorem ofOutcome_ne_limitReached (o : Minimiser.Outcome) : ofOutcome o ≠ .limitReached := by
  cases o <;> simp [ofOutcome]

@[simp]
theorem ofOutcome_ne_nonfinite (o : Minimiser.Outcome) : ofOutcome o ≠ .nonfinite := by
  cases o <;> simp [ofOutcome]

end Result

/-- The loop makes a further step if its limit allows. -/
def Progress.Going (p : Progress α n) : Prop := p.done = false ∧ p.result = .successful

theorem close_of_going {p : Progress α n} (going : p.Going) :
    close p = { p with result := .limitReached } := by
  simp [close, going.1, going.2]

theorem close_of_not_going {p : Progress α n} (ended : ¬ p.Going) : close p = p := by
  unfold close
  split
  · rename_i unfinished
    simp only [Bool.and_eq_true, beq_iff_eq, Bool.not_eq_true'] at unfinished
    exact absurd ⟨unfinished.2, unfinished.1⟩ ended
  · rfl

variable [Arith α]

/-- The loop after `k` steps, whether or not it would have ended before. -/
def after (c : Config α) (bound : Option (UpperBound α n)) (q : Quadratic α n) (y : Vec α n) :
    Nat → Progress α n
  | 0 => begin c q y
  | k + 1 => advance c bound q (after c bound q y k)

variable {c : Config α} {bound : Option (UpperBound α n)} {q : Quadratic α n} {y : Vec α n}

theorem run_of_not_going (left : Nat) {p : Progress α n} (ended : ¬ p.Going) :
    run c bound q left p = p := by
  cases left with
  | zero => rfl
  | succ left =>
    rw [run, if_pos]
    by_cases done : p.done = true
    · simp [done]
    · have trouble : p.result ≠ .successful := fun fine =>
        ended ⟨Bool.eq_false_iff.mpr done, fine⟩
      simp [trouble]

theorem run_of_going (left : Nat) {p : Progress α n} (going : p.Going) :
    run c bound q (left + 1) p = run c bound q left (advance c bound q p) := by
  simp [run, going.1, going.2]

/-- A loop that has made `k` steps and may make `left` more ends in the first state in which
it would not go on, or where nothing is left. -/
theorem run_after (c : Config α) (bound : Option (UpperBound α n)) (q : Quadratic α n)
    (y : Vec α n) (left k : Nat) :
    ∃ m, k ≤ m ∧ m ≤ k + left ∧
      run c bound q left (after c bound q y k) = after c bound q y m ∧
      (∀ j, k ≤ j → j < m → (after c bound q y j).Going) ∧
      (¬ (after c bound q y m).Going ∨ m = k + left) := by
  induction left generalizing k with
  | zero => exact ⟨k, by omega, by omega, rfl, by omega, Or.inr rfl⟩
  | succ left ih =>
    by_cases going : (after c bound q y k).Going
    · obtain ⟨m, later, within, same, before, last⟩ := ih (k + 1)
      refine ⟨m, by omega, by omega, ?_, ?_, last.imp_right fun spent => by omega⟩
      · rw [run_of_going left going]
        exact same
      · intro j from_k below
        by_cases here : j = k
        · exact here ▸ going
        · exact before j (by omega) below
    · exact ⟨k, by omega, by omega, run_of_not_going _ going, by omega, Or.inl going⟩

end Minimise

namespace Problem

variable [Arith α] (p : Problem α n) (c : Config α)

open Minimise

/-- The outer loop on a problem makes the steps of its run. -/
theorem follows_after (k : Nat) :
    p.Follows c ((p.iteration c).after (c.stopRule n) 0 false p.start k)
      ((after c p.bound p.objective p.start k).y,
        (after c p.bound p.objective p.start k).state) := by
  induction k with
  | zero => exact follows_begin p c 0 false
  | succ k ih => exact ih.step

theorem after_y (k : Nat) :
    (after c p.bound p.objective p.start k).y = (p.iteration c).iterate p.start k :=
  (p.follows_after c k).x_eq.trans (Iteration.after_x k)

theorem after_steps (k : Nat) : (after c p.bound p.objective p.start k).state.steps = k :=
  (p.follows_after c k).steps_eq.trans (Iteration.after_step k)

/-- A converged state has just been looked at, and its residual is small. -/
theorem after_converged {k : Nat}
    (converged : (after c p.bound p.objective p.start k).state.converged = true) :
    1 ≤ k ∧ c.checkEvery.number ∣ k ∧
      ∃ r, (after c p.bound p.objective p.start k).state.residual = some r ∧
        Arith.lt r (c.tolerance n) = true := by
  have follows := p.follows_after c k
  rw [follows.converged_eq, Iteration.after_converged_iff] at converged
  obtain ⟨due, small⟩ := converged
  obtain ⟨first, divides⟩ := ((c.stopRule n).due_iff k).mp due
  exact ⟨first, divides, _, follows.residual_eq.trans (Iteration.after_lastResidual due), small⟩

/-- The loop judges the iterate that entered its last step, and before any step the start. -/
theorem after_eq_judge (k : Nat) :
    after c p.bound p.objective p.start k
      = judge c ((p.iteration c).iterate p.start (k - 1))
          (after c p.bound p.objective p.start k).y
          (after c p.bound p.objective p.start k).state := by
  cases k with
  | zero => rfl
  | succ k =>
    rw [Nat.add_sub_cancel, ← p.after_y c k]
    rfl

theorem after_result (k : Nat) :
    (after c p.bound p.objective p.start k).result
      = if ((p.iteration c).iterate p.start (k - 1)).allFinite then
          .ofOutcome (Minimiser.terminate c (after c p.bound p.objective p.start k).state).2
        else .nonfinite :=
  congrArg Progress.result (p.after_eq_judge c k)

variable {c} {C : Nat} (whole : c.maxSteps = .whole C)
include whole

theorem after_done_iff (k : Nat) :
    (after c p.bound p.objective p.start k).done = true ↔
      (after c p.bound p.objective p.start k).state.converged = true ∨ C ≤ k := by
  have judged : (after c p.bound p.objective p.start k).done
      = (Minimiser.terminate c (after c p.bound p.objective p.start k).state).1 :=
    congrArg Progress.done (p.after_eq_judge c k)
  rw [judged, Minimiser.terminate_fst whole, p.after_steps c k]

/-- A loop that would go on has budget left. -/
theorem lt_of_going {k : Nat} (going : (after c p.bound p.objective p.start k).Going) : k < C := by
  by_contra spent
  have done := (p.after_done_iff whole k).mpr (Or.inr (by omega))
  exact Bool.false_ne_true (going.1.symm.trans done)

/-- The loop ends in the first state in which it would not go on, or at its limit. Without
a limit it ends all the same. -/
theorem exists_minimise_eq_close (limit : Option Nat) :
    ∃ k, minimise c p.bound p.objective limit p.start
        = close (after c p.bound p.objective p.start k) ∧
      k ≤ min C (limit.getD C) ∧
      (∀ j < k, (after c p.bound p.objective p.start j).Going) ∧
      (¬ (after c p.bound p.objective p.start k).Going ∨ limit = some k) := by
  have budget : c.maxSteps.number = C := by
    rw [whole]
    rfl
  obtain ⟨k, -, within, same, before, last⟩ :=
    run_after c p.bound p.objective p.start (limit.getD C) 0
  have inside : k ≤ C := by
    cases k with
    | zero => exact Nat.zero_le C
    | succ k => exact p.lt_of_going whole (before k (Nat.zero_le k) (Nat.lt_succ_self k))
  refine ⟨k, ?_, le_min inside (by omega), fun j => before j (Nat.zero_le j), ?_⟩
  · rw [minimise, budget]
    exact congrArg close same
  · cases limit with
    | none =>
      refine Or.inl fun going => ?_
      have := p.lt_of_going whole going
      rw [Option.getD_none, Nat.zero_add] at last
      rcases last with ended | spent
      · exact ended going
      · omega
    | some M =>
      rw [Option.getD_some, Nat.zero_add] at last
      exact last.imp_right fun spent => by rw [spent]

omit whole in
/-- The result of a loop is that of its minimiser, unless an entry is not finite. -/
theorem after_result_eq_iff (k : Nat) (o : Minimiser.Outcome) :
    (after c p.bound p.objective p.start k).result = .ofOutcome o ↔
      ((p.iteration c).iterate p.start (k - 1)).allFinite = true ∧
        (Minimiser.terminate c (after c p.bound p.objective p.start k).state).2 = o := by
  rw [after_result]
  by_cases finite : ((p.iteration c).iterate p.start (k - 1)).allFinite = true
  · simp [finite]
  · simp [finite, (Result.ofOutcome_ne_nonfinite o).symm]

omit whole in
theorem after_result_eq_nonfinite_iff (k : Nat) :
    (after c p.bound p.objective p.start k).result = .nonfinite ↔
      ((p.iteration c).iterate p.start (k - 1)).allFinite = false := by
  rw [after_result]
  by_cases finite : ((p.iteration c).iterate p.start (k - 1)).allFinite = true
  · simp [finite]
  · simp [finite]

omit whole in
/-- The limit is met only as the loop is closed. -/
theorem after_result_ne_limitReached (k : Nat) :
    (after c p.bound p.objective p.start k).result ≠ .limitReached := by
  rw [after_result]
  by_cases finite : ((p.iteration c).iterate p.start (k - 1)).allFinite = true
  · simp [finite]
  · simp [finite]

/-- A loop that would not go on and has nothing wrong has converged. -/
theorem converged_of_successful {k : Nat}
    (ended : ¬ (after c p.bound p.objective p.start k).Going)
    (fine : (after c p.bound p.objective p.start k).result = .successful) :
    (after c p.bound p.objective p.start k).state.converged = true := by
  have done : (after c p.bound p.objective p.start k).done = true := by
    by_contra unfinished
    exact ended ⟨Bool.eq_false_iff.mpr unfinished, fine⟩
  have outcome := ((p.after_result_eq_iff (c := c) k .successful).mp fine).2
  rcases (p.after_done_iff whole k).mp done with converged | spent
  · exact converged
  · by_contra open_end
    have told := (Minimiser.terminate_snd_iff c _).mpr
      ⟨(Minimiser.terminate_fst whole _).mpr (Or.inr (by rwa [p.after_steps])),
        Bool.eq_false_iff.mpr open_end⟩
    rw [outcome] at told
    cases told

/-- A loop stopped by the budget of its minimiser has made at least that many steps. -/
theorem spent_of_maxStepsReached {k : Nat}
    (told : (after c p.bound p.objective p.start k).result = .maxStepsReached) :
    C ≤ k ∧ (after c p.bound p.objective p.start k).state.converged = false := by
  have outcome := ((p.after_result_eq_iff k .maxStepsReached).mp told).2
  obtain ⟨done, open_end⟩ := (Minimiser.terminate_snd_iff c _).mp outcome
  rw [Minimiser.terminate_fst whole, open_end, p.after_steps] at done
  exact ⟨done.resolve_left Bool.false_ne_true, open_end⟩

end Problem

section Ending

variable [Arith α] {c : Config α} {bound : Option (Tensor α)} {C : Nat}

open Minimise

/-- How the outer loop ends: in the first state in which it would not go on, or where its
limit is met, after no more steps than limit and budget allow, so that it ends without a
limit as well. It answers success after a look that has passed, a spent budget or a met
limit where none has, and otherwise the iterate that entered the last step, or the start,
has an entry that is not finite. The call on arrays of fitting sizes answers this loop. -/
theorem outer_loop_ending [TextForm α] (whole : c.maxSteps = .whole C) (q : Quadratic α n)
    (limit : Option Nat) (x : Vec α n) :
    let p : Problem α n := { objective := q, start := x, bound := reading n bound }
    let state := after c p.bound q x
    let last := minimise c p.bound q limit x
    let k := last.state.steps
    last = close (state k) ∧ (∀ j < k, (state j).Going) ∧ (¬ (state k).Going ∨ limit = some k) ∧
    k ≤ min C (limit.getD C) ∧
    last.y = (p.iteration c).iterate x k ∧
    (last.result = .successful → last.state.converged = true ∧
      1 ≤ k ∧ c.checkEvery.number ∣ k ∧
      ∃ r, last.state.residual = some r ∧ Arith.lt r (c.tolerance n) = true) ∧
    (last.result = .maxStepsReached → k = C ∧ last.state.converged = false) ∧
    (last.result = .limitReached → limit = some k ∧ k < C ∧ last.state.converged = false) ∧
    (last.result = .nonfinite ↔ ((p.iteration c).iterate x (k - 1)).allFinite = false) ∧
    (1 ≤ n → (∀ t ∈ bound, Fits n t) → C < Count.counterBound → c.Steppable →
      ∀ given, limit? given = .ok limit →
        (Session.stating c q bound x).minimise? given = .ok ⟨n, last⟩) := by
  intro p state last k
  obtain ⟨m, same, within, before, stopped⟩ := p.exists_minimise_eq_close whole limit
  have last_eq : last = close (state m) := same
  have state_eq : last.state = (state m).state := by rw [last_eq, close_state]
  obtain rfl : k = m := by
    change last.state.steps = m
    rw [state_eq]
    exact p.after_steps c m
  have place : last.y = (p.iteration c).iterate x k := by
    rw [last_eq, close_y]
    exact p.after_y c k
  have calls (positive : 1 ≤ n) (fits : ∀ t ∈ bound, Fits n t) (inside : C < Count.counterBound)
      (steppable : c.Steppable) (given : Setting α) (read : limit? given = .ok limit) :
      (Session.stating c q bound x).minimise? given = .ok ⟨n, last⟩ := by
    have budgeted : c.maxSteps.fits = true := by
      simp [whole, Count.whole, Count.fits, inside]
    exact Session.minimise?_eq positive fits steppable budgeted read x
  refine ⟨last_eq, before, stopped, within, place, ?_⟩
  by_cases going : (state k).Going
  · have result_eq : last.result = .limitReached := by rw [last_eq, close_of_going going]
    have below : k < C := p.lt_of_going whole going
    have open_end : (state k).state.converged = false := by
      by_contra converged
      have done := (p.after_done_iff whole k).mpr (Or.inl (by simpa using converged))
      exact Bool.false_ne_true (going.1.symm.trans done)
    have finite := ((p.after_result_eq_iff k .successful).mp going.2).1
    rw [result_eq, state_eq]
    exact ⟨by simp, by simp,
      fun _ => ⟨stopped.resolve_left (not_not_intro going), below, open_end⟩,
      by simpa using finite, calls⟩
  · have result_eq : last.result = (state k).result := by rw [last_eq, close_of_not_going going]
    rw [result_eq, state_eq]
    refine ⟨?_, ?_, ?_, p.after_result_eq_nonfinite_iff k, calls⟩
    · intro fine
      have converged := p.converged_of_successful whole going fine
      exact ⟨converged, p.after_converged c converged⟩
    · intro told
      obtain ⟨spent, open_end⟩ := p.spent_of_maxStepsReached whole told
      exact ⟨le_antisymm (within.trans (min_le_left C _)) spent, open_end⟩
    · intro told
      exact absurd told (p.after_result_ne_limitReached k)

/-- One unknown in doubles whose linear term is undefined. -/
def Quadratic.unspoken : Quadratic Float 1 where
  Q := #v[#v[4.0]]
  h := #v[Arith.undefined]

/-- From a finite start the first step comes to an undefined iterate, but only the second
step is entered by it: there the loop ends, without a limit and within its budget. -/
theorem outer_loop_ending_undefined :
    Config.brief.maxSteps = .whole 3 ∧ ∃ last : Minimise.Progress Float 1,
      (Session.stating .brief .unspoken none #v[3.0]).minimise? .null = .ok ⟨1, last⟩ ∧
      last.result = .nonfinite ∧ last.state.steps = 2 ∧ last.state.steps ≤ min 3 3 ∧
      ((({ objective := .unspoken, start := #v[3.0], bound := none } : Problem Float 1).iteration
        .brief).iterate #v[3.0] 1).allFinite = false := by
  have steps : (minimise .brief none .unspoken none (#v[3.0] : Vec Float 1)).state.steps = 2 := by
    decide +kernel
  have result :
      (minimise .brief none .unspoken none (#v[3.0] : Vec Float 1)).result = .nonfinite := by
    decide +kernel
  obtain ⟨-, -, -, within, -, -, -, -, trouble, calls⟩ :=
    @outer_loop_ending _ _ _ .brief none 3 _ rfl .unspoken none #v[3.0]
  have entered := trouble.mp result
  have answered := calls le_rfl (fun _ given => nomatch given) (by decide +kernel)
    ⟨rfl, nofun⟩ .null rfl
  refine ⟨rfl, _, answered, result, steps, within, ?_⟩
  simp only [reading, Option.bind_none, steps] at entered
  exact entered

end Ending

end BoxQP
