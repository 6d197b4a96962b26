import BoxQP.Text.Character

/-!
# Reading a numeral

A numeral is an optional sign followed by decimal digits with at most one point and an optional exponent,
or by one of the words for infinity and for no number in any case. Blanks around it are ignored, a single
underscore may separate two digits, and the digits may come from any script.
-/

namespace BoxQP

/-- What a numeral says; the decimal case is `digits * 10 ^ exponent` under its sign. -/
inductive Numeral where
  | nan
  | infinite (negative : Bool)
  | decimal (negative : Bool) (digits : Nat) (exponent : Int)
  deriving DecidableEq

namespace Numeral

def trim (cs : List Char) : List Char :=
  ((cs.dropWhile Character.isBlank).reverse.dropWhile Character.isBlank).reverse

/-- Drops the underscores that stand between two digits; fails at any other underscore. -/
def joinDigits? : Char → List Char → Option (List Char)
  | previous, [] => if previous == '_' then none else some []
  | previous, c :: cs =>
    if c == '_' then
      if previous.isDigit then joinDigits? c cs else none
    else if previous == '_' && !c.isDigit then none
    else (joinDigits? c cs).map (c :: ·)

/-- The number that the digits `cs` write, after the digits read so far. -/
def ofDigits (cs : List Char) (sofar : Nat) : Nat :=
  cs.foldl (fun n c => 10 * n + (c.toNat - 48)) sofar

/-- Takes a sign off the front. -/
def sign : List Char → Bool × List Char
  | '-' :: cs => (true, cs)
  | '+' :: cs => (false, cs)
  | cs => (false, cs)

/-- The exponent part, which is nothing or a marker, an optional sign and at least one digit. -/
def exponent? : List Char → Option Int
  | [] => some 0
  | c :: cs =>
    let (negative, ds) := sign cs
    if (c == 'e' || c == 'E') && !ds.isEmpty && ds.all Char.isDigit then
      let n : Int := (ofDigits ds 0 : Nat)
      some (if negative then -n else n)
    else none

/-- A number without its sign. -/
def magnitude? (negative : Bool) (cs : List Char) : Option Numeral :=
  let whole := cs.takeWhile Char.isDigit
  let rest := cs.dropWhile Char.isDigit
  let (fraction, tail) := match rest with
    | '.' :: r => (r.takeWhile Char.isDigit, r.dropWhile Char.isDigit)
    | r => ([], r)
  if whole.isEmpty && fraction.isEmpty then none
  else (exponent? tail).map fun e =>
    .decimal negative (ofDigits fraction (ofDigits whole 0)) (e - (fraction.length : Int))

/-- A numeral without blanks and underscores. -/
def plain? (cs : List Char) : Option Numeral :=
  let (negative, body) := sign cs
  let word := String.ofList (body.map Char.toLower)
  if word == "nan" then some .nan
  else if word == "inf" || word == "infinity" then some (.infinite negative)
  else magnitude? negative body

def read? (s : String) : Option Numeral :=
  (joinDigits? ' ' ((trim s.toList).map Character.asciiDigit)).bind plain?

/-- The nearest double. The decimal exponent of the leading digit is looked at first, so that a numeral
far outside the range of doubles costs nothing. -/
def toFloat : Numeral → Float
  | .nan => 0.0 / 0.0
  | .infinite negative => if negative then -1.0 / 0.0 else 1.0 / 0.0
  | .decimal negative digits exponent =>
    let lead : Int := exponent + ((Nat.toDigits 10 digits).length : Int)
    let x : Float :=
      if digits == 0 || lead < -330 then 0.0
      else if 310 < lead then 1.0 / 0.0
      else match exponent with
        | .ofNat k => Float.ofScientific (digits * Nat.pow 10 k) false 0
        | .negSucc k => Float.ofScientific digits true (k + 1)
    if negative then -x else x

end Numeral

end BoxQP
