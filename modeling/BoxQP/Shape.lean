/-!
# Shapes

The shape of an array is the list of its extents, outermost first. Two shapes are matched from the last
axis backwards, and an axis of extent one goes with any other.
-/

namespace BoxQP

namespace Shape

/-- The number of entries of an array of this shape. -/
def volume : List Nat → Nat
  | [] => 1
  | k :: s => k * volume s

theorem volume_singleton (n : Nat) : volume [n] = n := by simp [volume]

theorem volume_column (n : Nat) : volume [n, 1] = n := by simp [volume]

theorem volume_pair (m n : Nat) : volume [m, n] = m * n := by simp [volume]

/-- The common extent of two matched axes. -/
def axis? (a b : Nat) : Option Nat :=
  if a = b then some a else if a = 1 then some b else if b = 1 then some a else none

/-- Matches two lists of extents, both from the last axis on; the longer one keeps its outer axes. -/
def meet? : List Nat → List Nat → Option (List Nat)
  | [], t => some t
  | s, [] => some s
  | a :: s, b :: t =>
    match axis? a b, meet? s t with
    | some k, some r => some (k :: r)
    | _, _ => none

/-- The shape of an entrywise combination of two arrays. -/
def combine? (s t : List Nat) : Option (List Nat) :=
  (meet? s.reverse t.reverse).map List.reverse

/-- Does a list of extents, from the last axis on, repeat to another one? -/
def repeatsTo : List Nat → List Nat → Bool
  | [], _ => true
  | _ :: _, [] => false
  | a :: s, b :: t => (a == b || a == 1) && repeatsTo s t

/-- Can an array of shape `s` be repeated to one of shape `t`? -/
def spreadsTo (s t : List Nat) : Bool := repeatsTo s.reverse t.reverse

/-- A shape in parentheses; a single extent keeps its comma. -/
def text : List Nat → String
  | [k] => s!"({k},)"
  | s => "(" ++ ", ".intercalate (s.map fun k => s!"{k}") ++ ")"

end Shape

end BoxQP
