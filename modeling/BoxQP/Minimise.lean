import BoxQP.Minimiser

/-!
# The outer loop

Drives a minimiser under a limit of its own, which is apart from the budget of the configuration. The loop
also ends when the iterate that entered the last step, or the starting point, has an entry that is not
finite.
-/

namespace BoxQP

namespace Minimise

inductive Result where
  | successful
  | maxStepsReached
  | limitReached
  | nonfinite
  deriving DecidableEq

def Result.name : Result → String
  | .successful => "successful"
  | .maxStepsReached => "max_steps_reached"
  | .limitReached => "nonlinear_max_steps_reached"
  | .nonfinite => "nonfinite"

def Result.ofOutcome : Minimiser.Outcome → Result
  | .successful => .successful
  | .maxStepsReached => .maxStepsReached

/-- The limit of a loop that is given none. -/
def standardLimit : Nat := 256

/-- A limit as it is given, where null is none. The loop makes its steps while their number is below it, so
that an infinite limit is none, and an undefined one allows no step. -/
def limit? {α : Type} [Arith α] [TextForm α] (given : Setting α) : Except Fault (Option Nat) :=
  match given with
  | .null => .ok none
  | .real x =>
    match TextForm.quotient? x with
    | some (p, q) => .ok (some ((p.toNat + (q - 1)) / q))
    | none => .ok (if Arith.lt 0 x then none else some 0)
  | v =>
    match v.integer? with
    | some k => if k.natAbs < Count.counterBound then .ok (some k.toNat) else .error .countTooLarge
    | none => .error .limitKind

/-- The loop between two steps. -/
structure Progress (α : Type) (n : Nat) where
  y : Vec α n
  state : Minimiser.State α n
  done : Bool
  result : Result

variable {α : Type} [Arith α] {n : Nat}

/-- The loop at the iterate `y`, where `entered` is the iterate that must be finite. -/
def judge (c : Config α) (entered y : Vec α n) (s : Minimiser.State α n) : Progress α n :=
  let (done, outcome) := Minimiser.terminate c s
  { y, state := s, done
    result := if entered.allFinite then .ofOutcome outcome else .nonfinite }

def begin (c : Config α) (q : Quadratic α n) (y : Vec α n) : Progress α n :=
  judge c y y (Minimiser.init c q y)

def advance (c : Config α) (bound : Option (UpperBound α n)) (q : Quadratic α n)
    (p : Progress α n) : Progress α n :=
  let (y, s) := Minimiser.step c bound q p.y p.state
  judge c p.y y s

/-- At most `limit` further steps. -/
def run (c : Config α) (bound : Option (UpperBound α n)) (q : Quadratic α n) :
    Nat → Progress α n → Progress α n
  | 0, p => p
  | limit + 1, p =>
    if p.done || p.result != .successful then p else run c bound q limit (advance c bound q p)

/-- A loop that is neither done nor in trouble has met its limit. -/
def close (p : Progress α n) : Progress α n :=
  if p.result == .successful && !p.done then { p with result := .limitReached } else p

/-- The whole loop. Without a limit the budget of the configuration is one, since the minimiser ends the
loop when it is spent. -/
def minimise (c : Config α) (bound : Option (UpperBound α n)) (q : Quadratic α n)
    (limit : Option Nat) (y : Vec α n) : Progress α n :=
  close (run c bound q (limit.getD c.maxSteps.number) (begin c q y))

end Minimise

end BoxQP
