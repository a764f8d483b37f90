/-! # Binary64 numbers

A binary floating-point number of 64 bits is held as its bit pattern, so two
numbers are equal exactly when their bits are. A finite number is its
significand times a power of two; `ofRatio` rounds a quotient of naturals to the
nearest such number.
-/

namespace Reshape

/-- A floating-point number of the 64-bit binary format. -/
structure Binary64 where
  bits : UInt64
deriving DecidableEq, Inhabited

namespace Binary64

def ofFloat (x : Float) : Binary64 := ⟨x.toBits⟩

def toFloat (x : Binary64) : Float := Float.ofBits x.bits

def zero : Binary64 := ⟨0⟩

def withSign (negative : Bool) (x : Binary64) : Binary64 :=
  if negative then ⟨x.bits ||| 0x8000000000000000⟩ else x

def isNegative (x : Binary64) : Bool := 0x8000000000000000 ≤ x.bits.toNat

def fractionCount : Nat := 0x10000000000000

/-- The exponent field: zero for subnormal numbers, 2047 for the non-finite ones. -/
def exponentField (x : Binary64) : Nat := x.bits.toNat / fractionCount % 2048

def fractionField (x : Binary64) : Nat := x.bits.toNat % fractionCount

def isFinite (x : Binary64) : Bool := x.exponentField != 2047

def isNaN (x : Binary64) : Bool := x.exponentField == 2047 && x.fractionField != 0

def infinity : Binary64 := ⟨0x7FF0000000000000⟩

def nan : Binary64 := ⟨0x7FF8000000000000⟩

/-- The natural number `m` of a finite number written as `m * 2 ^ e`. -/
def significand (x : Binary64) : Nat :=
  if x.exponentField = 0 then x.fractionField else x.fractionField + fractionCount

def exponent (x : Binary64) : Int :=
  if x.exponentField = 0 then -1074 else (x.exponentField : Int) - 1075

def isZero (x : Binary64) : Bool := x.isFinite && x.significand == 0

def add (x y : Binary64) : Binary64 := ofFloat (x.toFloat + y.toFloat)

def mul (x y : Binary64) : Binary64 := ofFloat (x.toFloat * y.toFloat)

/-- The natural number nearest to a quotient; a half goes to the even neighbour. -/
def roundQuotient (num den : Nat) : Nat :=
  let q := num / den
  let r := num % den
  if 2 * r < den then q else if den < 2 * r then q + 1 else q + q % 2

/-- The integer `l` with `2 ^ l ≤ num / den < 2 ^ (l + 1)`, for positive arguments. -/
def log2Quotient (num den : Nat) : Int :=
  let l : Int := (num.log2 : Int) - den.log2
  let reached := if 0 ≤ l then den <<< l.toNat ≤ num else den ≤ num <<< (-l).toNat
  if reached then l else l - 1

/-- The number nearest to `num / den`; a tie goes to the even significand. -/
def ofRatio (num den : Nat) : Binary64 :=
  if num = 0 ∨ den = 0 then zero
  else
    let e := max (log2Quotient num den - 52) (-1074)
    let m := if 0 ≤ e then roundQuotient num (den <<< e.toNat)
      else roundQuotient (num <<< (-e).toNat) den
    let bits := (e + 1074).toNat * fractionCount + m
    if bits < 2047 * fractionCount then ⟨bits.toUInt64⟩ else infinity

def ofInt (n : Int) : Binary64 := (ofRatio n.natAbs 1).withSign (n < 0)

end Binary64

end Reshape
