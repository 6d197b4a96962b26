import BoxQP.Tensor

/-!
# Arguments as they are written

An argument is null, a text, a whole number, a real one, an array, or a list of arguments. Nested lists of
one depth and equal lengths stand for an array of at most 64 axes. Of several mistakes in a nested list, a
null is reported before a text, a text before rows of unequal shape, and whole numbers that are too large
last.
-/

namespace BoxQP

inductive Literal (α : Type) where
  | null
  | text
  | integer (k : Int)
  | number (x : α)
  | array (t : Tensor α)
  | list (items : List (Literal α))

namespace Literal

variable {α : Type}

instance : Inhabited (Literal α) := ⟨.null⟩

mutual

/-- The arguments below all lists, in order. -/
def leaves : Literal α → List (Literal α)
  | .list items => leavesOf items
  | l => [l]

def leavesOf : List (Literal α) → List (Literal α)
  | [] => []
  | l :: ls => leaves l ++ leavesOf ls

end

def isNull : Literal α → Bool
  | .null => true
  | _ => false

def isText : Literal α → Bool
  | .text => true
  | _ => false

def isInteger : Literal α → Bool
  | .integer _ => true
  | _ => false

/-- Is this a whole number beyond the range of the arithmetic? -/
def isUnbounded [Arith α] : Literal α → Bool
  | .integer k => !Arith.isFinite (Arith.ofInt k : α)
  | _ => false

/-- Is this a whole number that does not fit 64 bits with a sign? -/
def isWide : Literal α → Bool
  | .integer k => k < -(Nat.pow 2 63 : Nat) || (Nat.pow 2 63 : Nat) ≤ k
  | _ => false

/-- Where all numbers are whole they have to fit 64 bits; among others they are read as real ones. -/
def holdsTooLarge [Arith α] (l : Literal α) : Bool :=
  l.leaves.any isUnbounded || (l.leaves.all isInteger && l.leaves.any isWide)

mutual

/-- The same argument with every whole number in the range of the arithmetic as a real one. -/
def real [Arith α] : Literal α → Literal α
  | .integer k =>
    let x : α := Arith.ofInt k
    if Arith.isFinite x then .number x else .integer k
  | .list items => .list (realAll items)
  | l => l

def realAll [Arith α] : List (Literal α) → List (Literal α)
  | [] => []
  | l :: ls => real l :: realAll ls

end

/-- The number of axes that an array can have. -/
def rankBound : Nat := 64

/-- Puts blocks of one shape under a new outermost axis. -/
def stack? (blocks : List (List Nat × List α)) : Option (List Nat × List α) :=
  match blocks with
  | [] => some ([0], [])
  | b :: bs =>
    if bs.all (fun c => c.1 == b.1) then
      some (blocks.length :: b.1, blocks.flatMap Prod.snd)
    else none

mutual

/-- The shape and the entries of a regularly nested argument. -/
def block? [Arith α] : Literal α → Option (List Nat × List α)
  | .null => none
  | .text => none
  | .integer k => some ([], [Arith.ofInt k])
  | .number x => some ([], [x])
  | .array t => some (t.shape, t.entries.toList)
  | .list items => (blocks? items).bind stack?

def blocks? [Arith α] : List (Literal α) → Option (List (List Nat × List α))
  | [] => some []
  | l :: ls =>
    match block? l, blocks? ls with
    | some b, some bs => some (b :: bs)
    | _, _ => none

end

/-- The array that an argument stands for. -/
def read [Arith α] : Literal α → Except Fault (Tensor α)
  | .array t => .ok t
  | l =>
    if l.leaves.any isNull then .error .nullEntry
    else if l.leaves.any isText then .error .textEntry
    else match l.block?.bind (fun b => Tensor.ofFlat? b.1 b.2) with
      | some t =>
        if rankBound < t.shape.length then .error .ragged
        else if l.holdsTooLarge then .error .wholeTooLarge
        else .ok t
      | none => .error .ragged

theorem read_array [Arith α] (t : Tensor α) : (Literal.array t).read = .ok t := rfl

/-- The array that an argument stands for, where null is the lack of one. -/
def read? [Arith α] : Literal α → Except Fault (Option (Tensor α))
  | .null => .ok none
  | l => l.read.map some

end Literal

end BoxQP
