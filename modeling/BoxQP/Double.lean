import BoxQP.Arithmetic
import BoxQP.Number.Numeral
import BoxQP.Number.Text

/-!
# The arithmetic of doubles

Both extremes hand an undefined operand on, and every comparison with one is false. Of the two zeros the
positive one is the larger.
-/

namespace BoxQP

namespace Double

/-- The larger of two doubles; two zeros of unlike sign add up to the positive one. -/
def larger (a b : Float) : Float :=
  if a.isNaN then a
  else if b.isNaN then b
  else if a < b then b
  else if a == 0.0 && b == 0.0 then a + b
  else a

end Double

instance : Arith Float where
  zero := 0.0
  one := 1.0
  abs := Float.abs
  sqrt := Float.sqrt
  max := Double.larger
  min a b := -(Double.larger (-a) (-b))
  lt a b := a < b
  le a b := a ≤ b
  isFinite := Float.isFinite
  ofInt k := (Numeral.decimal (k < 0) k.natAbs 0).toFloat

instance : TextForm Float where
  read? s := (Numeral.read? s).map Numeral.toFloat
  write := NumberText.shortest
  quotient? x := (Binary64.ofFloat x).lowestTerms?

end BoxQP
