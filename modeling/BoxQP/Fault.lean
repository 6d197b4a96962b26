import BoxQP.Shape

/-!
# Faults

What can be wrong with the structure of an input. The numbers are never judged, except where the default
starting point would divide by the diagonal.
-/

namespace BoxQP

inductive Fault where
  /-- A nested list holds a null. -/
  | nullEntry
  /-- An argument holds a text that is no number. -/
  | textEntry
  /-- The rows of a nested list differ in length or depth. -/
  | ragged
  /-- A function on sized arrays is called with other ranks or sizes. -/
  | contract
  /-- A whole number that is too large to be an entry of an array, or to be compared with one. -/
  | wholeTooLarge
  /-- A count of steps beyond the step counter. -/
  | countTooLarge
  /-- A history for a number of steps that is not a whole one. -/
  | fractionalHistory
  /-- A budget without end, where it has to be shown as a whole number. -/
  | infiniteBudget
  /-- An undefined budget, where it has to be shown as a whole number. -/
  | undefinedBudget
  /-- A run without end: it does not converge, and the step counter never spends its budget. -/
  | endless
  /-- A limit on the steps that is no number. -/
  | limitKind
  /-- The largest entry of nothing. -/
  | emptyMaximum
  /-- A product of a matrix and a vector that do not fit. -/
  | sizesDiffer
  /-- An array of a single number in place of the matrix of a product. -/
  | scalarFactor
  /-- Arrays of unlike rank that do not match axis by axis. -/
  | ranksClash
  /-- An entry is asked for along a first axis that is missing or has no extent. -/
  | noEntry
  /-- Several numbers for one coordinate. -/
  | severalNumbers
  | missingPart
  /-- An upper bound that cannot be combined with the iterate. -/
  | boundClashes
  /-- An update whose result is of another shape than the iterate. -/
  | shapeChanges
  /-- An upper bound that cannot be repeated to the length of the iterate. -/
  | boundUnspreadable
  | missingProblem
  | notVector (name : String) (shape : List Nat)
  | emptyProblem
  | problemSizes (shape : List Nat) (n : Nat)
  | degenerateDiagonal (indices : List Nat)
  | startLength (n given : Nat)
  | boundShape (n : Nat) (shape : List Nat)
  | missingRightSide
  | missingMultipliers
  | missingInequality
  | linearTermRank (shape : List Nat)
  | hessianSizes (shape : List Nat) (n : Nat)
  | constraintColumns (n : Nat) (shape : List Nat)
  | rightSideLength (m : Nat) (shape : List Nat)
  deriving DecidableEq

/-- The indices in brackets, separated by commas. -/
def indexList (indices : List Nat) : String :=
  "[" ++ ", ".intercalate (indices.map fun k => s!"{k}") ++ "]"

/-- The text of a fault, for those that have one. -/
def Fault.message : Fault → Option String
  | .missingProblem => some "Need at least matrix Q and vector h"
  | .notVector name shape =>
    some s!"{name} must be a vector of shape (n,) or (n, 1), got shape {Shape.text shape}"
  | .emptyProblem => some "h must have at least one entry"
  | .problemSizes shape n =>
    some s!"Q and h are inconsistent sizes: Q.shape={Shape.text shape}, len(h)={n}"
  | .degenerateDiagonal indices =>
    some ("The default initial guess divides by the diagonal of Q, "
      ++ s!"which is not positive at indices {indexList indices}; supply x0 instead")
  | .startLength n given => some s!"Initial x must have length {n}, got {given}"
  | .boundShape n shape =>
    some s!"maxval must be a scalar or have length {n}, got shape {Shape.text shape}"
  | .missingRightSide => some "Need the constraint right-hand side b"
  | .missingMultipliers => some "Need the multipliers lam"
  | .missingInequality => some "Need at least H, f and A"
  | .linearTermRank shape => some s!"f must be a vector, got shape {Shape.text shape}"
  | .hessianSizes shape n =>
    some s!"H and f are inconsistent sizes: H.shape={Shape.text shape}, len(f)={n}"
  | .constraintColumns n shape => some s!"A must have {n} columns, got shape {Shape.text shape}"
  | .rightSideLength m shape => some s!"b must have length {m}, got shape {Shape.text shape}"
  | _ => none

end BoxQP
