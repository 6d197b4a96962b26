import BoxQP.Double
import BoxQP.Solve

/-!
# Reports

How numbers are shown in answers, and what is logged about a solve.
-/

namespace BoxQP

namespace Report

/-- Nine significant digits, or twelve places for a magnitude below one thousandth. A zero there has no
sign. -/
def rounded (x : Float) : String :=
  if x.abs < 1e-3 then
    let text := NumberText.fixed 12 x
    if text == "-0.000000000000" then "0.000000000000" else text
  else NumberText.scientific 8 x

/-- Seventeen significant digits, which tell all doubles apart but the two zeros. -/
def exact (x : Float) : String := NumberText.scientific 16 (if x == 0.0 then 0.0 else x)

/-- The rank of a log record. -/
inductive Level where
  | debug
  | info

def Level.name : Level → String
  | .debug => "DEBUG"
  | .info => "INFO"

/-- A budget as a whole number; a real one is cut after its whole part. -/
def budget? (c : Count Float) : Except Fault String := do
  c.shown?
  match c.real.bind TextForm.quotient? with
  | none => .ok s!"{c.number}"
  | some (p, q) => .ok s!"{p.toNat / q}"

/-- The log records of a solve, in order. -/
def log? (c : Config Float) {n : Nat} (s : Solution Float n) : Except Fault (List (Level × String)) := do
  let budget ← budget? c.maxSteps
  let residual := NumberText.scientific 3 s.residual
  let threshold := NumberText.scientific 3 (c.tolerance n)
  let opening := s!"PQP solve: n={n}, split={c.policy.name}, schedule={c.schedule.name}, "
    ++ s!"max_steps={budget}"
  let closing := match s.verdict with
    | .converged => s!"PQP converged after {s.steps} iterations (KKT={residual})"
    | .budgetSpent =>
      s!"PQP stopped at the iteration budget of {s.steps} (KKT={residual}, threshold={threshold})"
  .ok [(.debug, opening), (.info, closing)]

end Report

end BoxQP
