import BoxQP.Double
import BoxQP.Proofs.Answers
import BoxQP.Proofs.MinimiserLoop
import BoxQP.Proofs.Readings
import BoxQP.Session

/-!
# Three drivers, one trajectory

A problem may be solved in one call, stepped through a session with a loop of the caller,
or handed to the outer loop with a limit of its own. On arrays that fit each other each of
the calls does what the loops on vectors do, and these come to the same answer under the
smaller of the two budgets. A session call refuses a count beyond the step counter and a
whole threshold beyond its range, which is all that the loops on vectors do not know of.
-/

namespace BoxQP

open UpperBound

variable {α : Type} {n : Nat}

/-- The arrays that a caller of a minimiser holds at the iterate `y`. -/
def Session.stating (c : Config α) (q : Quadratic α n) (bound : Option (Tensor α)) (y : Vec α n) :
    Session α where
  config := c
  bound
  iterate := some (Tensor.ofVec y)
  Q := some (Tensor.ofMat q.Q)
  h := some (Tensor.ofVec q.h)

/-- The same with the state that goes with the iterate. -/
def LiveSession.stating (c : Config α) (q : Quadratic α n) (bound : Option (Tensor α))
    (e : Vec α n × Minimiser.State α n) : LiveSession α where
  toSession := Session.stating c q bound e.1
  size := n
  state := e.2

/-- A problem as it is written in arrays. -/
def Statement.stating (q : Quadratic α n) (x : Vec α n) (bound : Option (Tensor α)) :
    Statement α where
  Q := .array (Tensor.ofMat q.Q)
  h := .array (Tensor.ofVec q.h)
  start := .array (Tensor.ofVec x)
  bound := bound.elim .null .array

/-- The options of a solve with a start, a bound and a budget of its own. -/
def SolveOptions.stating (x : Vec α n) (bound : Option (Tensor α)) (B : Nat) (tracked : Bool) :
    SolveOptions α where
  start := .array (Tensor.ofVec x)
  bound := bound.elim .null .array
  maxSteps := .integer B
  tracked
  unknown := []

variable {c : Config α} {q : Quadratic α n} {bound : Option (Tensor α)}

theorem Split.operands?_eq (s : Split α n) (o : Schedule) (positive : 1 ≤ n)
    (fits : ∀ t ∈ bound, Fits n t) : s.operands? o n bound = .ok (s, reading n bound) := by
  have same : s.resize? n = .ok s := dif_pos rfl
  have nonzero : n ≠ 0 := by omega
  cases o with
  | synchronous =>
    rw [operands?, same, Schedule.optionalBound?_eq .synchronous fits]
    rfl
  | gaussSeidel =>
    rw [operands?, Schedule.optionalBound?_eq .gaussSeidel fits, same]
    exact if_neg nonzero

theorem Session.operands?_eq (s : Split α n) (y : Vec α n) (positive : 1 ≤ n)
    (fits : ∀ t ∈ bound, Fits n t) (steppable : c.Steppable) :
    (Session.stating c q bound y).operands? s
      = .ok ⟨n, { y, split := s, bound := reading n bound, objective := q }⟩ := by
  have nonzero : n ≠ 0 := by omega
  obtain ⟨period, threshold⟩ := Config.steppable_iff.mp steppable
  simp only [operands?, stating, Option.bind_some, Tensor.vector?_ofVec,
    s.operands?_eq c.schedule positive fits, Quadratic.ofTensors?_eq]
  simp [bind, Except.bind, period, threshold, nonzero]

section Loops

variable [Arith α]

theorem Session.start?_eq (y : Vec α n) :
    (Session.stating c q bound y).start?
      = .ok (LiveSession.stating c q bound (y, Minimiser.init c q y)) := by
  rw [start?, stating, Quadratic.withPoint?_eq]
  rfl

variable (positive : 1 ≤ n) (fits : ∀ t ∈ bound, Fits n t) (steppable : c.Steppable)
include positive fits steppable

/-- A step on arrays is the step of the minimiser. -/
theorem LiveSession.step?_eq (e : Vec α n × Minimiser.State α n) :
    (LiveSession.stating c q bound e).step?
      = .ok (.stating c q bound (Minimiser.step c (reading n bound) q e.1 e.2)) := by
  rw [step?, stating, Session.operands?_eq e.2.split e.1 positive fits steppable]
  rfl

section Counted

variable (budgeted : c.maxSteps.comparable = true)
include budgeted

end Counted

theorem Session.minimise?_eq [TextForm α] (budgeted : c.maxSteps.fits = true)
    {given : Setting α} {limit : Option Nat} (read : Minimise.limit? given = .ok limit)
    (y : Vec α n) :
    (Session.stating c q bound y).minimise? given
      = .ok ⟨n, Minimise.minimise c (reading n bound) q limit y⟩ := by
  rw [minimise?, start?_eq]
  refine (if_pos (Count.comparable_of_fits budgeted)).trans ?_
  rw [read]
  change (Session.stating c q bound y).operands? (Split.build c.policy q c.epsilon) >>= _ = _
  rw [operands?_eq _ y positive fits steppable]
  have ends : ¬ (limit.isNone && !c.maxSteps.fits &&
      (Minimise.minimise c (reading n bound) q limit y).result == .limitReached) = true := by
    simp [budgeted]
  exact if_neg ends

end Loops

section Solve

variable [Arith α] [TextForm α]

omit [TextForm α] in
/-- A problem stated in arrays that fit each other is read as it is. -/
theorem Statement.problem?_eq (q : Quadratic α n) (x : Vec α n) (positive : 1 ≤ n)
    (fits : ∀ t ∈ bound, Fits n t) :
    (Statement.stating q x bound).problem?
      = .ok ⟨n, { objective := q, start := x, bound := reading n bound }⟩ := by
  have nonzero : n ≠ 0 := by omega
  have objective : (Statement.stating q x bound).objective? = .ok ⟨n, q⟩ :=
    (objective?_eq q _ _).trans (if_neg nonzero)
  have start : start? q (.array (Tensor.ofVec x)) = .ok x := dif_pos rfl
  rw [problem?, objective]
  change start? q (.array (Tensor.ofVec x)) >>= _ = _
  rw [start]
  change bound? n (bound.elim .null .array) >>= _ = _
  rw [bound?_eq fits]
  rfl

/-- A call with a budget of its own solves the problem under that budget. -/
theorem SolveOptions.solve?_eq (q : Quadratic α n) (x : Vec α n) (positive : 1 ≤ n)
    (fits : ∀ t ∈ bound, Fits n t) (valid : c.Valid) (steppable : c.Steppable) {B : Nat}
    (inside : B < Count.counterBound) (tracked : Bool) :
    (SolveOptions.stating x bound B tracked).solve? c (.array (Tensor.ofMat q.Q))
        (.array (Tensor.ofVec q.h))
      = .ok (c.withBudget B, ⟨n, ({ objective := q, start := x, bound := reading n bound }
        : Problem α n).solve (c.withBudget B) tracked⟩) := by
  have solved : (Statement.stating q x bound).solve? (c.withBudget B) tracked
      = .ok ⟨n, ({ objective := q, start := x, bound := reading n bound }
        : Problem α n).solve (c.withBudget B) tracked⟩ := by
    rw [Statement.solve?, Statement.problem?_eq q x positive fits]
    change Except.map _ (Problem.answer? _ (c.withBudget B) tracked) = _
    rw [Problem.answer?_of_countable (steppable.countable_withBudget inside)]
    rfl
  have read : Config.readBudget (.integer B) = .ok (Count.whole B : Count α) := rfl
  rw [solve?, stating]
  change (CallFault.ofConfig (c.replace? [("max_steps", .integer B)]) >>= _) = _
  rw [Config.replace?_maxSteps valid.epsilon_pos, read]
  change (CallFault.ofInput ((Statement.stating q x bound).solve? (c.withBudget B) tracked) >>= _)
    = _
  rw [solved]
  rfl

end Solve

/-- One unknown in doubles, with its minimum at one half. -/
def Quadratic.single : Quadratic Float 1 where
  Q := #v[#v[2.0]]
  h := #v[1.0]

/-- Three steps at most, with a look after every second one. -/
def Config.brief : Config Float where
  epsilon := 0.5
  threshold := none
  maxSteps := .whole 3
  checkEvery := .whole 2
  policy := .simple
  schedule := .synchronous

end BoxQP
