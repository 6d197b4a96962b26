import BoxQP.Number.Binary64

/-!
# Decimal digits of an exact value

Rounding of a quotient of whole numbers to a decimal grid, and the shortest decimal that lies in the
interval of reals which round to a given double. Ties go to the even digit throughout.
-/

namespace BoxQP

/-- The whole number nearest to `num / den`; a half goes to the even neighbour. -/
def roundDiv (num den : Nat) : Nat :=
  let q := num / den
  let r := num % den
  if 2 * r < den then q
  else if den < 2 * r then q + 1
  else if q % 2 == 0 then q else q + 1

namespace Decimal

/-- `num / den` times `10 ^ p`, again as a quotient. -/
def scale (num den : Nat) : Int → Nat × Nat
  | .ofNat k => (num * Nat.pow 10 k, den)
  | .negSucc k => (num, den * Nat.pow 10 (k + 1))

/-- The nearest whole number to `num / den * 10 ^ p`. -/
def roundAt (num den : Nat) (p : Int) : Nat :=
  let s := scale num den p
  roundDiv s.1 s.2

/-- How many decimal digits `n` is written with. -/
def length (n : Nat) : Nat := (Nat.toDigits 10 n).length

/-- The `e` with `10 ^ e ≤ num / den < 10 ^ (e + 1)`, for positive `num` and `den`. -/
def leadingExponent (num den : Nat) : Int :=
  let e : Int := (length num : Int) - (length den : Int)
  let s := scale num den (-e)
  if s.2 ≤ s.1 then e else e - 1

/-- The value rounded to `places + 1` significant digits: the digits, and the exponent of the first. -/
def significant (places : Nat) (num den : Nat) : Nat × Int :=
  let e := leadingExponent num den
  let c := roundAt num den ((places : Int) - e)
  if c == Nat.pow 10 (places + 1) then (Nat.pow 10 places, e + 1) else (c, e)

/-- Drops at most `fuel` final zeros of `c * 10 ^ p`, which keeps its value. -/
def dropZeros : Nat → Nat → Int → Nat × Int
  | 0, c, p => (c, p)
  | fuel + 1, c, p => if c != 0 && c % 10 == 0 then dropZeros fuel (c / 10) (p + 1) else (c, p)

/-- The interval of reals that round to a double, in quarters of its last binary place. The lower half
is shorter above a power of two, and the ends belong to it exactly when the mantissa is even. -/
structure Interval where
  low : Nat
  middle : Nat
  high : Nat
  closed : Bool

def Interval.ofMantissa (m : Nat) (e : Int) : Interval where
  low := if m == Nat.pow 2 52 && e != -1074 then 4 * m - 1 else 4 * m - 2
  middle := 4 * m
  high := 4 * m + 2
  closed := m % 2 == 0

/-- Is `c / unit` in the interval, where `unit` is a quotient of whole numbers? -/
def Interval.contains (i : Interval) (unit : Nat × Nat) (c : Nat) : Bool :=
  let x := c * unit.2
  if i.closed then i.low * unit.1 ≤ x && x ≤ i.high * unit.1
  else i.low * unit.1 < x && x < i.high * unit.1

/-- The neighbour of the value on the grid `10 ^ p` that lies in the interval, the nearer of two. -/
def Interval.onGrid? (i : Interval) (unit : Nat × Nat) : Option Nat :=
  let v := i.middle * unit.1
  let c := v / unit.2
  match i.contains unit c, i.contains unit (c + 1) with
  | true, true => some (roundDiv v unit.2)
  | true, false => some c
  | false, true => some (c + 1)
  | false, false => none

/-- Tries the grids of `digits`, `digits + 1`, … significant digits, at most `fuel` of them. -/
def searchGrids (i : Interval) (e : Int) (lead : Int) : Nat → Nat → Option (Nat × Int)
  | 0, _ => none
  | fuel + 1, digits =>
    let p := lead - (digits : Int) + 1
    let quarter := Binary64.quotient 1 (e - 2)
    match i.onGrid? (scale quarter.1 quarter.2 (-p)) with
    | some c => some (dropZeros digits c p)
    | none => searchGrids i e lead fuel (digits + 1)

/-- The shortest decimal `c * 10 ^ p` that reads back as the positive double `m * 2 ^ e`. Seventeen
digits always suffice. -/
def shortest (m : Nat) (e : Int) : Nat × Int :=
  let v := Binary64.quotient m e
  let lead := leadingExponent v.1 v.2
  (searchGrids (Interval.ofMantissa m e) e lead 17 1).getD (significant 16 v.1 v.2)

end Decimal

end BoxQP
