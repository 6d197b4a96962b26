import BoxQP.Arithmetic
import BoxQP.Text.Quoted

/-!
# Values given by name

A setting is whatever a caller may write for a named parameter; which ones a parameter takes is decided
where it is read. Every setting can be shown, so that a refusal can name it.
-/

namespace BoxQP

inductive Setting (α : Type) where
  | null
  | flag (b : Bool)
  | integer (k : Int)
  | real (x : α)
  | text (s : Codes)
  | list (items : List (Setting α))
  | record (names : List Codes) (values : List (Setting α))

/-- Parameters with the values given for them. -/
abbrev Settings (α : Type) := List (String × Setting α)

namespace Setting

variable {α : Type}

instance : Inhabited (Setting α) := ⟨.null⟩

mutual

def write [TextForm α] : Setting α → String
  | .null => "None"
  | .flag b => if b then "True" else "False"
  | .integer k => toString k
  | .real x => TextForm.write x
  | .text s => Quoted.write s
  | .list items => "[" ++ ", ".intercalate (writeAll items) ++ "]"
  | .record names values =>
    let fields := (names.zip (writeAll values)).map fun f => Quoted.write f.1 ++ ": " ++ f.2
    "\x7b" ++ ", ".intercalate fields ++ "\x7d"

def writeAll [TextForm α] : List (Setting α) → List String
  | [] => []
  | v :: vs => write v :: writeAll vs

end

/-- The whole number that a setting is or stands for; a flag counts as one or zero. -/
def integer? : Setting α → Option Int
  | .flag b => some (if b then 1 else 0)
  | .integer k => some k
  | _ => none

end Setting

end BoxQP
