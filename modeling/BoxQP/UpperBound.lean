import BoxQP.Tensor

/-!
# Upper bounds

An upper bound is one number for all coordinates or one for each. Where it is given as an array of any
shape, three readings are told apart: as a problem states it, as an entrywise minimum with the iterate
takes it, and as a repetition to the length of the iterate takes it.
-/

namespace BoxQP

inductive UpperBound (α : Type) (n : Nat) where
  | uniform (u : α)
  | each (u : Vec α n)

namespace UpperBound

variable {α : Type} {n : Nat}

def limit (b : UpperBound α n) (i : Fin n) : α :=
  match b with
  | .uniform u => u
  | .each u => u i

/-- Cuts the coordinate `i` at the bound, if there is one. -/
def cap [Arith α] (b : Option (UpperBound α n)) (i : Fin n) (y : α) : α :=
  match b with
  | none => y
  | some b => Arith.min y (b.limit i)

/-- The array that states the bound. -/
def toTensor : UpperBound α n → Tensor α
  | .uniform u => Tensor.scalar u
  | .each u => Tensor.ofVec u

/-- A single entry bounds all coordinates, `n` entries one each. -/
def ofEntries? (n : Nat) (t : Tensor α) : Option (UpperBound α n) :=
  if single : t.size = 1 then
    let e : Vec α 1 := t.entries.cast single
    some (.uniform e.first)
  else if full : t.size = n then some (.each (t.entries.cast full))
  else none

/-- The bound of a problem: a single entry of any rank, a vector of length `n`, or a column of it. -/
def ofProblem? (n : Nat) (t : Tensor α) : Except Fault (UpperBound α n) :=
  if t.size = 1 ∨ t.shape = [n] ∨ t.shape = [n, 1] then
    match ofEntries? n t with
    | some b => .ok b
    | none => .error (.boundShape n t.shape)
  else .error (.boundShape n t.shape)

/-- The bound of an entrywise minimum with a vector of length `n`, whose result must be one again. -/
def combined? (n : Nat) (t : Tensor α) : Except Fault (UpperBound α n) :=
  match Shape.combine? [n] t.shape, ofEntries? n t with
  | none, _ => .error (if t.shape.length = 1 then .boundClashes else .ranksClash)
  | some s, some b => if s = [n] then .ok b else .error .shapeChanges
  | some _, none => .error .shapeChanges

/-- The bound of a repetition to a vector of length `n`. -/
def spread? (n : Nat) (t : Tensor α) : Except Fault (UpperBound α n) :=
  if Shape.spreadsTo t.shape [n] then
    match ofEntries? n t with
    | some b => .ok b
    | none => .error .boundUnspreadable
  else .error .boundUnspreadable

end UpperBound

end BoxQP
