import BoxQP.Vec

/-!
# Runs of an iteration

An iteration is a step on vectors with a value and a residual to watch. A run applies the step until the
residual, looked at after every `checkEvery` steps, is below a threshold, or until its budget is spent. The
values along a run go into an array that is laid out for the whole budget beforehand. What a run computes is
stated against `iterate`, the plain repetition of the step.
-/

namespace BoxQP

structure Iteration (α : Type) (n : Nat) where
  next : Vec α n → Vec α n
  value : Vec α n → α
  residual : Vec α n → α

/-- When a run is over before its budget is. -/
structure StopRule (α : Type) where
  threshold : α
  checkEvery : Nat

/-- Is the residual looked at after this many steps? -/
def StopRule.due {α : Type} (r : StopRule α) (step : Nat) : Bool :=
  0 < step && step % r.checkEvery == 0

namespace Iteration

variable {α : Type} {n : Nat}

/-- The iterate after `k` steps from `x`. -/
def iterate (it : Iteration α n) (x : Vec α n) : Nat → Vec α n
  | 0 => x
  | k + 1 => it.next (it.iterate x k)

/-- The state of a run; `lastResidual` is the one of the last look. Where the values are kept, `history` has
an entry for the start and for every step of the budget, undefined until the run comes to it. -/
structure Progress (α : Type) (n : Nat) where
  x : Vec α n
  step : Nat
  converged : Bool
  lastResidual : Option α
  history : Option (Array α)

def begin [Arith α] (it : Iteration α n) (budget : Nat) (tracked : Bool) (x : Vec α n) :
    Progress α n where
  x
  step := 0
  converged := false
  lastResidual := none
  history :=
    if tracked then some ((Array.replicate (budget + 1) Arith.undefined).setIfInBounds 0 (it.value x))
    else none

/-- One step, with the look at the residual if it is due. -/
def advance [Arith α] (it : Iteration α n) (r : StopRule α) (p : Progress α n) : Progress α n :=
  let x := it.next p.x
  let step := p.step + 1
  let history := p.history.map fun values => values.setIfInBounds step (it.value x)
  if r.due step then
    let residual := it.residual x
    { x, step, history, converged := Arith.lt residual r.threshold, lastResidual := some residual }
  else { x, step, history, converged := false, lastResidual := p.lastResidual }

/-- At most `budget` further steps, none after convergence. -/
def run [Arith α] (it : Iteration α n) (r : StopRule α) : Nat → Progress α n → Progress α n
  | 0, p => p
  | budget + 1, p => if p.converged then p else run it r budget (it.advance r p)

theorem iterate_add (it : Iteration α n) (x : Vec α n) (j k : Nat) :
    it.iterate x (j + k) = it.iterate (it.iterate x j) k := by
  induction k with
  | zero => rfl
  | succ k ih => exact congrArg it.next ih

section Run

variable [Arith α] (it : Iteration α n) (r : StopRule α)

theorem advance_x (p : Progress α n) : (it.advance r p).x = it.next p.x := by
  simp only [advance]
  split <;> rfl

theorem advance_step (p : Progress α n) : (it.advance r p).step = p.step + 1 := by
  simp only [advance]
  split <;> rfl

theorem run_of_converged (budget : Nat) (p : Progress α n) (ended : p.converged = true) :
    it.run r budget p = p := by
  cases budget with
  | zero => rfl
  | succ budget => simp [run, ended]

theorem run_succ (budget : Nat) (p : Progress α n) (going : p.converged = false) :
    it.run r (budget + 1) p = it.run r budget (it.advance r p) := by
  simp [run, going]

end Run

end Iteration

end BoxQP
