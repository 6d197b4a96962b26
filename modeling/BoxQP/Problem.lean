import BoxQP.Literal
import BoxQP.Update

/-!
# Problems

A problem is an objective, a starting point and possibly an upper bound. It is read from
written arguments in a fixed order: the objective, then the start, then the bound; the first fault found is
the one reported. After that every size fits by its type.
-/

namespace BoxQP

structure Problem (α : Type) (n : Nat) where
  objective : Quadratic α n
  start : Vec α n
  bound : Option (UpperBound α n)

/-- A problem as it is written; a null start asks for the default one, a null bound for none. -/
structure Statement (α : Type) where
  Q : Literal α
  h : Literal α
  start : Literal α
  bound : Literal α

variable {α : Type} {n : Nat}

/-- The vector that an argument stands for; `name` is used to report another rank. -/
def Literal.vector? [Arith α] (name : String) (l : Literal α) : Except Fault ((n : Nat) × Vec α n) := do
  let t ← l.read
  match t.column? with
  | some v => .ok v
  | none => .error (.notVector name t.shape)

/-- The coordinates with a diagonal entry that is not positive, in increasing order. -/
def Quadratic.degenerate [Arith α] (q : Quadratic α n) : List Nat :=
  ((List.finRange n).filter fun i => Arith.le (q.Q i i) 0).map Fin.val

namespace Statement

def objective? [Arith α] (a : Statement α) : Except Fault ((n : Nat) × Quadratic α n) := do
  if a.Q.isNull || a.h.isNull then .error .missingProblem
  else
    let Q ← a.Q.read
    let ⟨n, h⟩ ← a.h.vector? "h"
    if n = 0 then .error .emptyProblem
    else match Q.matrixOf? n n with
      | some M => .ok ⟨n, ⟨M, h⟩⟩
      | none => .error (.problemSizes Q.shape n)

def start? [Arith α] (q : Quadratic α n) : Literal α → Except Fault (Vec α n)
  | .null =>
    match q.degenerate with
    | [] => .ok q.guess
    | indices => .error (.degenerateDiagonal indices)
  | l => do
    let ⟨k, x⟩ ← l.vector? "x0"
    if same : k = n then .ok (x.cast same) else .error (.startLength n k)

def bound? [Arith α] (n : Nat) : Literal α → Except Fault (Option (UpperBound α n))
  | .null => .ok none
  | l => do
    let t ← l.read
    let b ← UpperBound.ofProblem? n t
    .ok (some b)

def problem? [Arith α] (a : Statement α) : Except Fault ((n : Nat) × Problem α n) := do
  let ⟨n, objective⟩ ← a.objective?
  let start ← start? objective a.start
  let bound ← bound? n a.bound
  .ok ⟨n, { objective, start, bound }⟩

end Statement

end BoxQP
