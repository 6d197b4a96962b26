import BoxQP.Number.Decimal

/-!
# Written numbers

Three ways to write a double: with a fixed number of places, in scientific form with a fixed number of
digits, and with the fewest digits that read back. All are correctly rounded from the exact value.
-/

namespace BoxQP

namespace NumberText

/-- Decimal digits of `n`, with zeros in front up to `width`. -/
def padded (width n : Nat) : List Char :=
  let cs := Nat.toDigits 10 n
  List.replicate (width - cs.length) '0' ++ cs

/-- The digits of `n` with a point in front of the last `places` of them. -/
def withPoint (places n : Nat) : String :=
  let cs := padded (places + 1) n
  let whole := String.ofList (cs.take (cs.length - places))
  if places == 0 then whole else whole ++ "." ++ String.ofList (cs.drop (cs.length - places))

/-- A signed exponent of at least two digits. -/
def exponent (e : Int) : String :=
  (if e < 0 then "e-" else "e+") ++ String.ofList (padded 2 e.natAbs)

def signed (negative : Bool) (text : String) : String := if negative then "-" ++ text else text

/-- The magnitude `m * 2 ^ e` rounded to `places` places. -/
def fixedMagnitude (places m : Nat) (e : Int) : String :=
  let v := Binary64.quotient m e
  withPoint places (Decimal.roundAt v.1 v.2 places)

/-- The magnitude `m * 2 ^ e` as one digit, `places` more, and an exponent. -/
def scientificMagnitude (places m : Nat) (e : Int) : String :=
  if m == 0 then withPoint places 0 ++ exponent 0
  else
    let v := Binary64.quotient m e
    let d := Decimal.significant places v.1 v.2
    withPoint places d.1 ++ exponent d.2

/-- The positive magnitude `m * 2 ^ e` with the fewest digits that read back: positional from `1e-4`
up to `1e16`, and then always with a point; otherwise scientific. -/
def shortestMagnitude (m : Nat) (e : Int) : String :=
  if m == 0 then "0.0"
  else
    let d := Decimal.shortest m e
    let places := Decimal.length d.1 - 1
    let lead : Int := d.2 + (places : Int)
    if -4 ≤ lead && lead < 16 then
      match d.2 with
      | .ofNat k => withPoint 0 (d.1 * Nat.pow 10 k) ++ ".0"
      | .negSucc k => withPoint (k + 1) d.1
    else withPoint places d.1 ++ exponent lead

/-- Writes the value `x`, its magnitude by `magnitude`. -/
def write (magnitude : Nat → Int → String) : Binary64 → String
  | .nan => "nan"
  | .infinite negative => signed negative "inf"
  | .finite negative m e => signed negative (magnitude m e)

def fixed (places : Nat) (x : Float) : String := write (fixedMagnitude places) (.ofFloat x)

def scientific (places : Nat) (x : Float) : String := write (scientificMagnitude places) (.ofFloat x)

def shortest (x : Float) : String := write shortestMagnitude (.ofFloat x)

end NumberText

end BoxQP
