/-!
# What a double stands for

A double is a signed multiple `m * 2 ^ e` of a power of two, an infinity, or not a number. All of it is
read off the 64 bits; no arithmetic on doubles is used here.
-/

namespace BoxQP

/-- The value of a double; a finite one is `mantissa * 2 ^ exponent` under its sign. -/
inductive Binary64 where
  | nan
  | infinite (negative : Bool)
  | finite (negative : Bool) (mantissa : Nat) (exponent : Int)
  deriving DecidableEq

namespace Binary64

/-- Sign, exponent field and fraction field of the bit pattern `b`. -/
def ofBits (b : Nat) : Binary64 :=
  let negative := b / Nat.pow 2 63 % 2 == 1
  let field : Nat := b / Nat.pow 2 52 % Nat.pow 2 11
  let fraction : Nat := b % Nat.pow 2 52
  if field == 2047 then
    if fraction == 0 then .infinite negative else .nan
  else if field == 0 then .finite negative fraction (-1074)
  else .finite negative (fraction + Nat.pow 2 52) ((field : Int) - 1075)

def ofFloat (x : Float) : Binary64 := ofBits x.toBits.toNat

/-- The power `2 ^ e` times `m`, as a quotient of two whole numbers. -/
def quotient (m : Nat) : Int → Nat × Nat
  | .ofNat k => (m * Nat.pow 2 k, 1)
  | .negSucc k => (m, Nat.pow 2 (k + 1))

/-- The value in lowest terms, for a finite double. -/
def lowestTerms? : Binary64 → Option (Int × Nat)
  | .finite negative m e =>
    let v := quotient m e
    let g := Nat.gcd v.1 v.2
    let p : Int := (v.1 / g : Nat)
    some (if negative then -p else p, v.2 / g)
  | _ => none

end Binary64

end BoxQP
