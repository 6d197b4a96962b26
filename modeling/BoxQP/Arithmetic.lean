/-!
# Arithmetic

The operations that a run needs, and nothing about them: no law is part of the class, so what is stated
for every arithmetic holds of doubles with their rounding, infinities and undefined values as well. The
comparisons answer a Boolean, because a run branches on them.
-/

namespace BoxQP

/-- The operations of one arithmetic. -/
class Arith (α : Type) extends Zero α, One α, Add α, Sub α, Mul α, Div α, Neg α where
  abs : α → α
  sqrt : α → α
  max : α → α → α
  min : α → α → α
  lt : α → α → Bool
  le : α → α → Bool
  isFinite : α → Bool
  ofInt : Int → α

/-- Reading and writing the numbers of an arithmetic. -/
class TextForm (α : Type) where
  read? : String → Option α
  write : α → String
  /-- The exact value as a quotient in lowest terms, for a number that has one. -/
  quotient? : α → Option (Int × Nat)

namespace Arith

variable {α : Type} [Arith α]

def half : α := 1 / (1 + 1)

/-- The quotient that no number answers; where it is none, it stays so through every operation. -/
def undefined : α := 0 / 0

end Arith

end BoxQP
