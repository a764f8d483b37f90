import Reshape.Decimal.Binary64

/-! # Texts of numbers

The reals that round to a finite number form an interval around it. `shortest`
finds a decimal of fewest digits in that interval, and of those the one nearest
to the number. A layout says which numbers are written with a point between their
digits, and how the exponent of the others is written.
-/

namespace Reshape

structure Decimal where
  coefficient : Nat
  exponent : Int
deriving DecidableEq

namespace Decimal

/-- Move trailing zeros of the coefficient into the exponent. -/
def normalize (d : Decimal) : Decimal :=
  go d.coefficient d.coefficient d.exponent
where
  go : Nat → Nat → Int → Decimal
    | 0, c, e => ⟨c, e⟩
    | fuel + 1, c, e => if c ≠ 0 ∧ c % 10 = 0 then go fuel (c / 10) (e + 1) else ⟨c, e⟩

end Decimal

namespace Binary64

/--
The interval of reals that round to a finite number, over one denominator. The
ends belong to it exactly when the significand is even.
-/
structure Interval where
  lower : Nat
  value : Nat
  upper : Nat
  denominator : Nat
  closed : Bool

/-- The step below a power of two is half the step above it. -/
def interval (x : Binary64) : Interval :=
  let m := x.significand
  let e := x.exponent - 2
  let below := if x.fractionField = 0 ∧ 1 < x.exponentField then 1 else 2
  let scale := if 0 ≤ e then 1 <<< e.toNat else 1
  let denominator := if 0 ≤ e then 1 else 1 <<< (-e).toNat
  ⟨(4 * m - below) * scale, 4 * m * scale, (4 * m + 2) * scale, denominator, m % 2 == 0⟩

namespace Interval

def leadingExponent (i : Interval) : Int :=
  if i.denominator ≤ i.value then
    ((Nat.toDigits 10 (i.value / i.denominator)).length : Int) - 1
  else
    let l : Int := (Nat.toDigits 10 (i.denominator / i.value)).length
    if i.denominator ≤ i.value * Nat.pow 10 (l - 1).toNat then 1 - l else -l

/-- The interval measured in units of a power of ten. -/
def inUnits (i : Interval) (k : Int) : Interval :=
  if 0 ≤ k then { i with denominator := i.denominator * Nat.pow 10 k.toNat }
  else
    let scale := Nat.pow 10 (-k).toNat
    { i with lower := i.lower * scale, value := i.value * scale, upper := i.upper * scale }

def contains (i : Interval) (n : Nat) : Bool :=
  let scaled := n * i.denominator
  if i.closed then i.lower ≤ scaled && scaled ≤ i.upper
  else i.lower < scaled && scaled < i.upper

/--
The natural number in the interval that is nearest to its value, if one of the
value's two neighbours is in it. Of two equally near the even one is taken.
-/
def nearest? (i : Interval) : Option Nat :=
  let n := i.value / i.denominator
  let r := i.value % i.denominator
  match i.contains n, i.contains (n + 1) with
  | false, false => none
  | true, false => some n
  | false, true => some (n + 1)
  | true, true =>
    if 2 * r < i.denominator then some n
    else if i.denominator < 2 * r then some (n + 1)
    else some (n + n % 2)

end Interval

/-- A shortest decimal that reads back as the number, for finite positive numbers. -/
def shortest (x : Binary64) : Decimal :=
  let i := x.interval
  let p := i.leadingExponent
  let candidate (digits : Nat) : Option Decimal :=
    let k := p - digits
    ((i.inUnits k).nearest?).map fun n => (Decimal.mk n k).normalize
  ((List.range 17).findSome? candidate).getD ⟨i.value / i.denominator, 0⟩

end Binary64

/-- How the shortest digits of a number are set out. -/
structure Layout where
  /-- The least exponent of a first digit that is still written positionally. -/
  lowest : Int
  highest : Int
  exponentPlus : String
  nan : String
  infinity : String

namespace Layout

def zeros (n : Nat) : List Char := List.replicate n '0'

/-- Digits with the point after the digit of exponent zero, and at least one digit after it. -/
def positional (digits : List Char) (first : Int) : String :=
  if first < 0 then
    .ofList ('0' :: '.' :: zeros (-first - 1).toNat ++ digits)
  else
    let whole := first.toNat + 1
    if digits.length ≤ whole then .ofList (digits ++ zeros (whole - digits.length) ++ ['.', '0'])
    else .ofList (digits.take whole ++ '.' :: digits.drop whole)

def scientific (l : Layout) (digits : List Char) (first : Int) : String :=
  let mantissa := match digits with
    | [] => []
    | [d] => [d]
    | d :: rest => d :: '.' :: rest
  let sign := if first < 0 then "-" else l.exponentPlus
  .ofList mantissa ++ "e" ++ sign ++ toString first.natAbs

def render (l : Layout) (x : Binary64) : String :=
  if x.isNaN then l.nan
  else
    let sign := if x.isNegative then "-" else ""
    if !x.isFinite then sign ++ l.infinity
    else if x.isZero then sign ++ "0.0"
    else
      let d := x.shortest
      let digits := Nat.toDigits 10 d.coefficient
      let first := d.exponent + digits.length - 1
      if l.lowest ≤ first ∧ first ≤ l.highest then sign ++ positional digits first
      else sign ++ l.scientific digits first

end Layout

end Reshape
