import BoxQP.Config

/-!
# The iteration one call at a time

A minimiser keeps its own state between calls: the split built by the last `init`, the number of steps
since, and what the last step and the last look at the residual found. The iterate and the problem data
belong to the caller, who may change them between calls.
-/

namespace BoxQP

namespace Minimiser

structure State (α : Type) (n : Nat) where
  steps : Nat
  split : Split α n
  value : α
  residual : Option α
  converged : Bool

/-- What stops a caller's loop, as far as the minimiser can tell. -/
inductive Outcome where
  | successful
  | maxStepsReached
  deriving DecidableEq

def Outcome.name : Outcome → String
  | .successful => "successful"
  | .maxStepsReached => "max_steps_reached"

variable {α : Type} [Arith α] {n : Nat}

def init (c : Config α) (q : Quadratic α n) (y : Vec α n) : State α n where
  steps := 0
  split := Split.build c.policy q c.epsilon
  value := q.value y
  residual := none
  converged := false

/-- One update of `y` with the kept split, judged by the data `q` of the caller. -/
def step (c : Config α) (bound : Option (UpperBound α n)) (q : Quadratic α n) (y : Vec α n)
    (s : State α n) : Vec α n × State α n :=
  let x := s.split.update c.schedule c.epsilon bound y
  let steps := s.steps + 1
  let value := q.value x
  if (c.stopRule n).due steps then
    let residual := q.residual x
    (x, { steps, split := s.split, value, residual := some residual,
          converged := Arith.lt residual (c.stopRule n).threshold })
  else (x, { steps, split := s.split, value, residual := s.residual, converged := false })

/-- Is the caller's loop over, and how? -/
def terminate (c : Config α) (s : State α n) : Bool × Outcome :=
  let spent := c.maxSteps.reached s.steps
  (s.converged || spent, if s.converged then .successful else if spent then .maxStepsReached else .successful)

end Minimiser

end BoxQP
