import BoxQP.Parts

/-!
# Repeated updates on arrays

A trail is the list of iterates that repeated updates make from an array; the first fault ends it. The
array has to be a vector, whose length may not fit the update.
-/

namespace BoxQP

variable {α : Type}

/-- An update of vectors of any length, which may fail. -/
abbrev VectorUpdate (α : Type) := {n : Nat} → Vec α n → Except Fault (Vec α n)

namespace VectorUpdate

/-- One update of an array. -/
def onTensor? (f : VectorUpdate α) (x : Option (Tensor α)) : Except Fault (Tensor α) :=
  match x.bind Tensor.vector? with
  | none => .error .contract
  | some ⟨_, x⟩ => (f x).map Tensor.ofVec

/-- The answers of `k` updates in a row. -/
def trail (f : VectorUpdate α) : Nat → Option (Tensor α) → List (Except Fault (Tensor α))
  | 0, _ => []
  | k + 1, x =>
    match onTensor? f x with
    | .error fault => [.error fault]
    | .ok y => .ok y :: trail f k (some y)

end VectorUpdate

end BoxQP
