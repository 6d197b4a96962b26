/-!
# Texts as lists of codes

A text that is handed in is the list of its codes. It may hold halves of surrogate pairs, which stand for
no character, so that not every such text is a string.
-/

namespace BoxQP

abbrev Codes := List Nat

namespace Codes

def ofString (s : String) : Codes := s.toList.map Char.toNat

/-- The string of a text, if every code stands for a character. -/
def toString? (cs : Codes) : Option String :=
  if cs.all fun n => decide n.isValidChar then some (String.ofList (cs.map Char.ofNat)) else none

theorem toString?_ofString (s : String) : (ofString s).toString? = some s := by
  have valid : ∀ c : Char, c.toNat.isValidChar := fun c => c.valid
  simp [ofString, toString?, valid, Function.comp_def, Char.ofNat_toNat]

end Codes

end BoxQP
