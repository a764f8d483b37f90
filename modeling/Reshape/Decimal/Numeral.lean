import Reshape.Decimal.Binary64

/-! # Numerals

Reading floating-point numbers: digits with an optional point and exponent, or
the names of the infinities and of not-a-number. The result is the number
nearest to the decimal that is written.
-/

namespace Reshape.Numeral

def isDigit (c : Char) : Bool := '0' ≤ c && c ≤ '9'

def digitValue (c : Char) : Nat := c.toNat - '0'.toNat

def digitsValue (cs : List Char) : Nat := cs.foldl (fun n c => 10 * n + digitValue c) 0

def splitSign : List Char → Bool × List Char
  | '-' :: cs => (true, cs)
  | '+' :: cs => (false, cs)
  | cs => (false, cs)

def sameLetters (word : String) (cs : List Char) : Bool :=
  cs.map Char.toLower == word.toList

/--
The number nearest to `coefficient * 10 ^ exponent`. Decimals far outside the
range of the format are settled by the exponent of their first digit.
-/
def nearest (coefficient : Nat) (exponent : Int) : Binary64 :=
  if coefficient = 0 then .zero
  else
    let first := exponent + (Nat.toDigits 10 coefficient).length
    if 400 < first then .infinity
    else if first < -400 then .zero
    else if 0 ≤ exponent then .ofRatio (coefficient * Nat.pow 10 exponent.toNat) 1
    else .ofRatio coefficient (Nat.pow 10 (-exponent).toNat)

/-- The exponent part after the digits, zero if nothing is left to read. -/
def exponent? : List Char → Option Int
  | [] => some 0
  | c :: cs =>
    if c = 'e' ∨ c = 'E' then
      let (negative, digits) := splitSign cs
      if digits.isEmpty || !digits.all isDigit then none
      else some (if negative then -(digitsValue digits : Int) else digitsValue digits)
    else none

/-- Digits with an optional point and exponent; some digit stands before the exponent. -/
def unsigned? (cs : List Char) : Option Binary64 :=
  let (whole, afterWhole) := cs.span isDigit
  let (fraction, rest) := match afterWhole with
    | '.' :: afterPoint => afterPoint.span isDigit
    | _ => ([], afterWhole)
  if whole.isEmpty && fraction.isEmpty then none
  else (exponent? rest).map fun e =>
    nearest (digitsValue (whole ++ fraction)) (e - fraction.length)

def read? (cs : List Char) : Option Binary64 :=
  let (negative, magnitude) := splitSign cs
  let unsigned :=
    if sameLetters "inf" magnitude || sameLetters "infinity" magnitude then some Binary64.infinity
    else if sameLetters "nan" magnitude then some Binary64.nan
    else unsigned? magnitude
  unsigned.map (Binary64.withSign negative)

end Reshape.Numeral
