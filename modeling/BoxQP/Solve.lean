import BoxQP.Config
import BoxQP.Problem

/-!
# Solving a problem

The split is built once, and the update it gives is run from the starting point. A spent budget is a normal
end: the last iterate is the answer, with its residual. A run that neither converges nor spends its budget has
no answer. The budget is shown in a log record before a run begins, which not every budget can be; the records
themselves are in `Report`.
-/

namespace BoxQP

inductive Verdict where
  | converged
  | budgetSpent
  deriving DecidableEq

/-- The answer of a run: the final iterate, the values at all iterates if they were asked for, and the
residual at the final iterate. -/
structure Solution (α : Type) (n : Nat) where
  x : Vec α n
  values : Option (Array α)
  verdict : Verdict
  steps : Nat
  residual : α

variable {α : Type} [Arith α] {n : Nat}

namespace Problem

/-- The update of the configured policy and schedule, with the objective and its residual to watch. -/
def iteration (p : Problem α n) (c : Config α) : Iteration α n :=
  let s := Split.build c.policy p.objective c.epsilon
  { next := s.update c.schedule c.epsilon p.bound
    value := p.objective.value
    residual := p.objective.residual }

/-- The state in which the run of a problem ends. -/
def final (p : Problem α n) (c : Config α) (tracked : Bool) : Iteration.Progress α n :=
  let it := p.iteration c
  it.run (c.stopRule n) c.maxSteps.number (it.begin c.maxSteps.number tracked p.start)

/-- Solves a problem; of the values only those are kept that the run has come to. -/
def solve (p : Problem α n) (c : Config α) (tracked : Bool) : Solution α n :=
  let final := p.final c tracked
  { x := final.x
    values := final.history.map fun values => values.extract 0 (final.step + 1)
    verdict := if final.converged then .converged else .budgetSpent
    steps := final.step
    residual := p.objective.residual final.x }

/-- Runs a problem to its end, if there is one. Where the step counter does not spend the budget, the run is
over on convergence alone. -/
def answer? (p : Problem α n) (c : Config α) (tracked : Bool) : Except Fault (Solution α n) := do
  c.runnable? tracked
  let s := p.solve c tracked
  if s.verdict = .converged ∨ c.maxSteps.fits then .ok s else .error .endless

section Answer

variable {p : Problem α n} {c : Config α} {tracked : Bool}

theorem answer?_of_runnable (runs : c.runnable? tracked = .ok ()) :
    p.answer? c tracked = if (p.solve c tracked).verdict = .converged ∨ c.maxSteps.fits
      then .ok (p.solve c tracked) else .error .endless := by
  rw [answer?, runs]
  rfl

theorem answer?_of_countable (countable : c.Countable tracked) :
    p.answer? c tracked = .ok (p.solve c tracked) := by
  rw [answer?_of_runnable (Config.runnable?_of_countable countable)]
  exact if_pos (Or.inr countable.budget)

theorem answer?_error {f : Fault} (stopped : c.runnable? tracked = .error f) :
    p.answer? c tracked = .error f := by
  rw [answer?, stopped]
  rfl

/-- An answer is the outcome of the run, which was started and has ended. -/
theorem answer?_eq_ok_iff {s : Solution α n} :
    p.answer? c tracked = .ok s ↔ c.runnable? tracked = .ok () ∧ s = p.solve c tracked ∧
      (s.verdict = .converged ∨ c.maxSteps.fits = true) := by
  cases runs : c.runnable? tracked with
  | error f => simp [answer?_error runs]
  | ok _ =>
    rw [answer?_of_runnable runs]
    split
    · rename_i ended
      simp only [Except.ok.injEq, true_and]
      constructor
      · rintro rfl
        exact ⟨rfl, ended⟩
      · rintro ⟨rfl, -⟩
        rfl
    · rename_i endless
      simp only [reduceCtorEq, true_and, false_iff]
      rintro ⟨rfl, ended⟩
      exact endless ended

end Answer

end Problem

/-- Reads a problem and solves it. -/
def Statement.solve? (a : Statement α) (c : Config α) (tracked : Bool) :
    Except Fault ((n : Nat) × Solution α n) := do
  let ⟨n, p⟩ ← a.problem?
  (p.answer? c tracked).map (Sigma.mk n)

end BoxQP
