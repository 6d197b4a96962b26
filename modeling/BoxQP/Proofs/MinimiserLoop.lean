import BoxQP.Minimise
import BoxQP.Proofs.BoundedRun
import Mathlib.Algebra.GroupWithZero.Nat
import Mathlib.Order.MinMax

/-!
# Loops around a minimiser

A caller may drive a minimiser by asking before every step whether it is done, and may
stop and go on later; the outer loop asks the same and judges each iterate it enters as
well. Under a whole budget both pass through the states of a bounded run. The step
relation is proved for one step, and the loops follow by induction on the number of steps
allowed. No law of the arithmetic is used.
-/

namespace BoxQP

variable {α : Type} {n : Nat}

namespace Iteration

variable [Arith α] {it : Iteration α n} {r : StopRule α} {budget : Nat} {tracked : Bool}
  {x : Vec α n}

/-- A step without a look keeps the residual of the last one. -/
theorem after_lastResidual_succ {k : Nat} (quiet : ¬ r.due (k + 1) = true) :
    (it.after r budget tracked x (k + 1)).lastResidual
      = (it.after r budget tracked x k).lastResidual := by
  simp only [after, advance, after_step, if_neg quiet]

/-- The residual that a state keeps is the one of the last look. -/
theorem after_lastResidual_of_isGreatest {k m : Nat}
    (last : IsGreatest {j | j ≤ k ∧ r.due j = true} m) :
    (it.after r budget tracked x k).lastResidual = some (it.residual (it.iterate x m)) := by
  induction k with
  | zero =>
    have first := ((r.due_iff m).mp last.1.2).1
    have := last.1.1
    omega
  | succ k ih =>
    by_cases due : r.due (k + 1) = true
    · have here : m = k + 1 := le_antisymm last.1.1 (last.2 ⟨le_rfl, due⟩)
      rw [here]
      exact after_lastResidual due
    · have before : m ≠ k + 1 := fun here => due (here ▸ last.1.2)
      rw [after_lastResidual_succ due]
      refine ih ⟨⟨?_, last.1.2⟩, fun j earlier => ?_⟩
      · have := last.1.1
        omega
      · exact last.2 ⟨Nat.le_succ_of_le earlier.1, earlier.2⟩

/-- Before the first look a state keeps no residual. -/
theorem after_lastResidual_eq_none {k : Nat} (quiet : ∀ j ≤ k, ¬ r.due j = true) :
    (it.after r budget tracked x k).lastResidual = none := by
  induction k with
  | zero => rfl
  | succ k ih =>
    rw [after_lastResidual_succ (quiet (k + 1) le_rfl)]
    exact ih fun j earlier => quiet j (by omega)

end Iteration

namespace Minimiser

variable [Arith α] (c : Config α) (bound : Option (UpperBound α n)) (q : Quadratic α n)

/-- At most `k` steps from an iterate and its state, none once the minimiser is done. -/
def drive : Nat → Vec α n × State α n → Vec α n × State α n
  | 0, e => e
  | k + 1, e => if (terminate c e.2).1 then e else drive k (step c bound q e.1 e.2)

variable {c bound q} {e : Vec α n × State α n}

theorem drive_of_done (k : Nat) (ended : (terminate c e.2).1 = true) :
    drive c bound q k e = e := by
  cases k with
  | zero => rfl
  | succ k => simp [drive, ended]

theorem drive_succ (k : Nat) (going : ¬ (terminate c e.2).1 = true) :
    drive c bound q (k + 1) e = drive c bound q k (step c bound q e.1 e.2) := by
  simp [drive, going]

theorem step_steps (e : Vec α n × State α n) :
    (step c bound q e.1 e.2).2.steps = e.2.steps + 1 := by
  simp only [step]
  split <;> rfl

theorem terminate_fst_iff (c : Config α) (s : State α n) :
    (terminate c s).1 = true ↔ s.converged = true ∨ c.maxSteps.reached s.steps = true := by
  simp only [terminate, Bool.or_eq_true]

/-- A minimiser that is done without having converged has spent its budget. -/
theorem terminate_snd_iff (c : Config α) (s : State α n) :
    (terminate c s).2 = .maxStepsReached ↔ (terminate c s).1 = true ∧ s.converged = false := by
  cases ended : s.converged <;> simp [terminate, ended]

theorem terminate_fst {C : Nat} (whole : c.maxSteps = .whole C) (s : State α n) :
    (terminate c s).1 = true ↔ s.converged = true ∨ C ≤ s.steps := by
  simp only [terminate, whole, Count.reached_whole, Bool.or_eq_true, decide_eq_true_eq]

end Minimiser

namespace Minimise

variable [Arith α] {c : Config α} {bound : Option (UpperBound α n)} {q : Quadratic α n}

open Minimiser

omit [Arith α] in
theorem close_y (p : Progress α n) : (close p).y = p.y := by
  simp only [close]
  split <;> rfl

omit [Arith α] in
theorem close_state (p : Progress α n) : (close p).state = p.state := by
  simp only [close]
  split <;> rfl

end Minimise

namespace Problem

variable [Arith α]

open Minimiser

/-- A minimiser on problem `p` is where the run `t` is. -/
structure Follows (p : Problem α n) (c : Config α) (t : Iteration.Progress α n)
    (e : Vec α n × State α n) : Prop where
  x_eq : e.1 = t.x
  steps_eq : e.2.steps = t.step
  converged_eq : e.2.converged = t.converged
  residual_eq : e.2.residual = t.lastResidual
  split_eq : e.2.split = Split.build c.policy p.objective c.epsilon
  value_eq : e.2.value = p.objective.value e.1

variable {p : Problem α n} {c : Config α} {t : Iteration.Progress α n} {e : Vec α n × State α n}

theorem follows_begin (p : Problem α n) (c : Config α) (budget : Nat) (tracked : Bool) :
    p.Follows c ((p.iteration c).begin budget tracked p.start)
      (p.start, init c p.objective p.start) where
  x_eq := rfl
  steps_eq := rfl
  converged_eq := rfl
  residual_eq := rfl
  split_eq := rfl
  value_eq := rfl

/-- One step of the minimiser is one step of the run. -/
theorem Follows.step (follows : p.Follows c t e) :
    p.Follows c ((p.iteration c).advance (c.stopRule n) t)
      (step c p.bound p.objective e.1 e.2) := by
  have next : e.2.split.update c.schedule c.epsilon p.bound e.1 = (p.iteration c).next t.x := by
    rw [follows.split_eq, follows.x_eq]
    rfl
  simp only [Minimiser.step, Iteration.advance, next, follows.steps_eq]
  by_cases due : (c.stopRule n).due (t.step + 1) = true
  · rw [if_pos due, if_pos due]
    exact ⟨rfl, rfl, rfl, rfl, follows.split_eq, rfl⟩
  · rw [if_neg due, if_neg due]
    exact ⟨rfl, rfl, rfl, follows.residual_eq, follows.split_eq, rfl⟩

/-- As long as the budget lasts, the loops go on together. -/
theorem Follows.drive {C : Nat} (whole : c.maxSteps = .whole C) (left : Nat)
    (room : t.step + left ≤ C) (follows : p.Follows c t e) :
    p.Follows c ((p.iteration c).run (c.stopRule n) left t)
      (drive c p.bound p.objective left e) := by
  induction left generalizing t e with
  | zero => exact follows
  | succ left ih =>
    have done_iff : (terminate c e.2).1 = true ↔ t.converged = true := by
      rw [terminate_fst whole, follows.converged_eq, follows.steps_eq]
      exact or_iff_left (by omega)
    cases ended : t.converged with
    | true =>
      rw [Iteration.run_of_converged _ _ _ _ ended, drive_of_done _ (done_iff.mpr ended)]
      exact follows
    | false =>
      have going : ¬ (terminate c e.2).1 = true := fun done =>
        Bool.false_ne_true (ended.symm.trans (done_iff.mp done))
      rw [Iteration.run_succ _ _ _ _ ended, drive_succ _ going]
      refine ih ?_ follows.step
      rw [Iteration.advance_step]
      omega

/-- A minimiser has come to the answer of a run: to its iterate, its number of steps and its
verdict. The value is the last one of the history, and the residual is the one at the last
step number that is due, if there is one. -/
structure Reached (p : Problem α n) (c : Config α) (answer : Solution α n)
    (e : Vec α n × State α n) : Prop where
  x_eq : e.1 = answer.x
  steps_eq : e.2.steps = answer.steps
  converged_iff : e.2.converged = true ↔ answer.verdict = .converged
  value_eq : e.2.value = p.objective.value answer.x
  value_last : ∀ values, answer.values = some values → values.back? = some e.2.value
  residual_seen : ∀ m,
    IsGreatest {k | 1 ≤ k ∧ k ≤ answer.steps ∧ c.checkEvery.number ∣ k} m →
      e.2.residual = some (p.objective.residual ((p.iteration c).iterate p.start m))
  residual_unseen : {k | 1 ≤ k ∧ k ≤ answer.steps ∧ c.checkEvery.number ∣ k} = ∅ →
    e.2.residual = none
  residual_eq : answer.verdict = .converged → e.2.residual = some answer.residual

/-- The step numbers up to `m` at which the residual is looked at. -/
theorem due_upTo_eq (c : Config α) (m : Nat) :
    {k | 1 ≤ k ∧ k ≤ m ∧ c.checkEvery.number ∣ k} = {k | k ≤ m ∧ (c.stopRule n).due k = true} := by
  ext k
  rw [Set.mem_ofPred_eq, Set.mem_ofPred_eq, StopRule.due_iff]
  exact and_left_comm

theorem solve_verdict_iff (p : Problem α n) (c : Config α) (tracked : Bool) :
    (p.solve c tracked).verdict = .converged ↔ (p.final c tracked).converged = true := by
  change (if (p.final c tracked).converged then Verdict.converged else .budgetSpent) = _ ↔ _
  split <;> simp_all

/-- A minimiser that is where a run has ended has come to its answer. -/
theorem Follows.reached {B : Nat} {tracked : Bool}
    (follows : p.Follows c (p.final (c.withBudget B) tracked) e) :
    p.Reached c (p.solve (c.withBudget B) tracked) e := by
  obtain ⟨m, ended, bounded, -⟩ := p.final_eq_stateAfter (c.withBudget B) tracked
  have steps_eq : (p.solve (c.withBudget B) tracked).steps = m := solve_steps ended
  have value_eq : e.2.value = p.objective.value (p.solve (c.withBudget B) tracked).x := by
    rw [follows.value_eq, follows.x_eq]
    rfl
  have residual_eq : e.2.residual = (p.stateAfter (c.withBudget B) tracked m).lastResidual :=
    ended ▸ follows.residual_eq
  refine ⟨follows.x_eq, follows.steps_eq, ?_, value_eq, ?_, ?_, ?_, ?_⟩
  · rw [solve_verdict_iff, follows.converged_eq]
  · intro values kept
    obtain ⟨size_eq, written⟩ := (solve_values ended bounded).2 values kept
    rw [Array.back?_eq_getElem?, size_eq, Nat.add_sub_cancel, written m le_rfl, value_eq,
      solve_x ended]
  · intro last greatest
    rw [steps_eq, due_upTo_eq (n := n)] at greatest
    rw [residual_eq]
    exact Iteration.after_lastResidual_of_isGreatest greatest
  · intro none_due
    rw [steps_eq, due_upTo_eq (n := n)] at none_due
    rw [residual_eq]
    refine Iteration.after_lastResidual_eq_none fun j reached due => ?_
    exact Set.eq_empty_iff_forall_notMem.mp none_due j ⟨reached, due⟩
  · intro converged
    have passes := (solve_converged_iff ended bounded).mp converged
    have due := ((p.mem_passing_iff (c.withBudget B) m).mp passes).2.1
    change e.2.residual = some (p.objective.residual (p.solve (c.withBudget B) tracked).x)
    rw [residual_eq, solve_x ended]
    exact Iteration.after_lastResidual due

section Drivers

variable {C : Nat} (p : Problem α n)

end Drivers

end Problem

end BoxQP
