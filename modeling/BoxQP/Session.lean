import BoxQP.Literal
import BoxQP.Minimise

/-!
# Sessions on arrays of any size

A session is what the caller of a minimiser holds: the configuration, the upper bound, the iterate and the
problem data, all given as arrays. A live session has a minimiser state as well. Sizes are checked by the
call that first needs them to fit, in the order in which the call comes to them, and a call that fails ends
the series.
-/

namespace BoxQP

structure Session (α : Type) where
  config : Config α
  bound : Option (Tensor α)
  iterate : Option (Tensor α)
  Q : Option (Tensor α)
  h : Option (Tensor α)

/-- A session with the state that the minimiser keeps for it, whatever the size of its split. -/
structure LiveSession (α : Type) extends Session α where
  size : Nat
  state : Minimiser.State α size

variable {α : Type}

namespace Session

/-- What a step works with, all of one size. -/
structure Operands (α : Type) (n : Nat) where
  y : Vec α n
  split : Split α n
  bound : Option (UpperBound α n)
  objective : Quadratic α n

/-- Fits the operands of a step: the iterate, the split and the bound, then the problem data, and last the
residual, which needs a coordinate, and a period and a threshold that it can be compared with. -/
def operands? {m : Nat} (a : Session α) (s : Split α m) : Except Fault ((n : Nat) × Operands α n) := do
  match a.iterate.bind Tensor.vector? with
  | none => .error .contract
  | some ⟨n, y⟩ =>
    let (split, bound) ← s.operands? a.config.schedule n a.bound
    let ⟨k, q⟩ ← Quadratic.ofTensors? a.Q a.h
    if same : k = n then
      if !a.config.checkEvery.comparable then .error .countTooLarge
      else if n = 0 then .error .emptyMaximum
      else if !a.config.threshold.all Threshold.comparable then .error .wholeTooLarge
      else .ok ⟨n, { y, split, bound, objective := same ▸ q }⟩
    else .error .contract

variable [Arith α]

/-- Starts the minimiser, or starts it again, at the iterate and the data at hand. -/
def start? (a : Session α) : Except Fault (LiveSession α) := do
  let ⟨n, q, y⟩ ← Quadratic.withPoint? a.iterate a.Q a.h
  .ok { a with size := n, state := Minimiser.init a.config q y }

/-- The outer loop from the iterate at hand. The budget must be one that the counter can be compared with,
and the operands of a step must fit even where no step is made. A loop that has neither a limit nor a budget
that is ever spent has no end unless it finds one. -/
def minimise? [TextForm α] (a : Session α) (limit : Setting α) :
    Except Fault ((n : Nat) × Minimise.Progress α n) := do
  let live ← a.start?
  let limit ← if a.config.maxSteps.comparable then Minimise.limit? limit else .error .countTooLarge
  let ⟨n, o⟩ ← a.operands? live.state.split
  let p := Minimise.minimise a.config o.bound o.objective limit o.y
  if limit.isNone && !a.config.maxSteps.fits && p.result == .limitReached then .error .endless
  else .ok ⟨n, p⟩

end Session

/-- What a caller can do with a live session. -/
inductive SessionCall (α : Type) where
  | step (k : Nat)
  /-- At most `k` steps, none once the minimiser is done. -/
  | run (k : Nat)
  | setIterate (y : Literal α)
  | setData (Q h : Literal α)
  | start
  | terminate
  | report

/-- What a call answers: the session after it, the verdict on going on, or the closing report. -/
inductive SessionAnswer (α : Type) where
  | session (a : LiveSession α)
  | verdict (done : Bool) (outcome : Minimiser.Outcome)
  | report (a : LiveSession α)

namespace LiveSession

variable [Arith α]

def step? (a : LiveSession α) : Except Fault (LiveSession α) := do
  let ⟨n, o⟩ ← a.toSession.operands? a.state.split
  let (y, s) := Minimiser.step a.config o.bound o.objective o.y
    { steps := a.state.steps, split := o.split, value := a.state.value, residual := a.state.residual,
      converged := a.state.converged }
  .ok { a.toSession with iterate := some (Tensor.ofVec y), size := n, state := s }

def steps? : Nat → LiveSession α → Except Fault (LiveSession α)
  | 0, a => .ok a
  | k + 1, a => do steps? k (← a.step?)

/-- Asks whether the series of steps is over, which needs a budget that the counter can be compared with. -/
def terminate? (a : LiveSession α) : Except Fault (Bool × Minimiser.Outcome) :=
  if a.config.maxSteps.comparable then .ok (Minimiser.terminate a.config a.state)
  else .error .countTooLarge

def run? : Nat → LiveSession α → Except Fault (LiveSession α)
  | 0, a => .ok a
  | k + 1, a => do
    let (done, _) ← a.terminate?
    if done then .ok a else run? k (← a.step?)

/-- One call: the session after it, and its answer. -/
def call? (a : LiveSession α) (c : SessionCall α) : Except Fault (LiveSession α × SessionAnswer α) := do
  match c with
  | .step k =>
    let b ← steps? k a
    .ok (b, .session b)
  | .run k =>
    let b ← run? k a
    .ok (b, .session b)
  | .setIterate y =>
    let iterate ← y.read?
    let b := { a with iterate }
    .ok (b, .session b)
  | .setData Q h =>
    let Q ← Q.read?
    let h ← h.read?
    let b := { a with Q, h }
    .ok (b, .session b)
  | .start =>
    let b ← a.toSession.start?
    .ok (b, .session b)
  | .terminate =>
    let (done, outcome) ← a.terminate?
    .ok (a, .verdict done outcome)
  | .report => .ok (a, .report a)

/-- The answers to a series of calls, up to the first that fails. -/
def answers (a : LiveSession α) : List (SessionCall α) → List (Except Fault (SessionAnswer α))
  | [] => []
  | c :: cs =>
    match a.call? c with
    | .ok (b, answer) => .ok answer :: answers b cs
    | .error f => [.error f]

end LiveSession

end BoxQP
