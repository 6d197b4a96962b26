import BoxQP.Text.Codes
import BoxQP.Text.Printable

/-!
# Quoted text

A text between quotes on one line. The single quote is preferred; a text that holds single quotes and no
double ones is put between double quotes. What is not printable is written by its code.
-/

namespace BoxQP

namespace Quoted

/-- `width` hexadecimal digits of `n`. -/
def hex (width n : Nat) : List Char :=
  let cs := Nat.toDigits 16 n
  List.replicate (width - cs.length) '0' ++ cs

/-- How one code is written between two of the characters `quote`. -/
def writeCode (quote : Char) (n : Nat) : List Char :=
  if n == quote.toNat || n == '\\'.toNat then ['\\', Char.ofNat n]
  else if n == '\n'.toNat then ['\\', 'n']
  else if n == '\r'.toNat then ['\\', 'r']
  else if n == '\t'.toNat then ['\\', 't']
  else if Character.isPrintable n then [Char.ofNat n]
  else if n < 0x100 then '\\' :: 'x' :: hex 2 n
  else if n < 0x10000 then '\\' :: 'u' :: hex 4 n
  else '\\' :: 'U' :: hex 8 n

def quoteFor (cs : Codes) : Char :=
  if cs.contains '\''.toNat && !cs.contains '"'.toNat then '"' else '\''

def write (cs : Codes) : String :=
  let quote := quoteFor cs
  String.ofList (quote :: (cs.flatMap (writeCode quote) ++ [quote]))

end Quoted

end BoxQP
