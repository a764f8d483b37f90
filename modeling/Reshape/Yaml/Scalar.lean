import Reshape.Decode
import Reshape.Decimal.Numeral
import Reshape.Tree
import Reshape.Yaml.Token

/-! # Types of scalars

A plain scalar stands for null, a boolean, a number, or else its text. Digits
with a zero in front are text. A quoted scalar is text unless a tag of the core
schema gives it a type.
-/

namespace Reshape.Yaml

/-- What a scalar stands for. -/
inductive Scalar where
  | null
  | bool (b : Bool)
  | int (n : Int)
  | wide (n : Int)
  | float (x : Binary64)
  | string (s : String)
deriving DecidableEq

namespace Scalar

open Numeral

def isNullWord (s : String) : Bool := ["null", "Null", "NULL", "~"].contains s

def bool? (s : String) : Option Bool :=
  if ["true", "True", "TRUE"].contains s then some true
  else if ["false", "False", "FALSE"].contains s then some false
  else none

def digit? (c : Char) : Option Nat :=
  if isDigit c then some (digitValue c)
  else if 'a' ≤ c ∧ c ≤ 'f' then some (c.toNat - 'a'.toNat + 10)
  else if 'A' ≤ c ∧ c ≤ 'F' then some (c.toNat - 'A'.toNat + 10)
  else none

def natural? (base : Nat) (cs : List Char) : Option Nat :=
  if cs.isEmpty then none
  else
    cs.foldlM (fun n c => (digit? c).bind fun d => if d < base then some (base * n + d) else none) 0

def base? (c : Char) : Option Nat :=
  if c = 'x' then some 16 else if c = 'o' then some 8 else if c = 'b' then some 2 else none

/-- Digits with a base marker, or decimal ones without a zero in front. -/
def magnitude? (cs : List Char) : Option Nat :=
  match cs with
  | '0' :: c :: digits =>
    match base? c with
    | some base => natural? base digits
    | none => none
  | _ => natural? 10 cs

/-- Integers of 64 bits and, beyond them, of 128 bits. -/
def ofInt? (n : Int) : Option Scalar :=
  if -0x8000000000000000 ≤ n ∧ n < 0x10000000000000000 then some (int n)
  else if -0x80000000000000000000000000000000 ≤ n ∧ n < 0x100000000000000000000000000000000 then
    some (wide n)
  else none

def int? (cs : List Char) : Option Scalar :=
  match cs with
  | '-' :: digits => (magnitude? digits).bind fun n => ofInt? (-(n : Int))
  | '+' :: digits => (magnitude? digits).bind fun n => ofInt? n
  | _ => (magnitude? cs).bind fun n => ofInt? n

/-- Digits with an optional sign and a zero in front. -/
def isZeroPadded (cs : List Char) : Bool :=
  match (splitSign cs).2 with
  | '0' :: d :: digits => (d :: digits).all isDigit
  | _ => false

def float? (cs : List Char) : Option Binary64 :=
  let unsigned := match cs with
    | '+' :: rest => if rest.head?.any fun c => c = '+' ∨ c = '-' then none else some rest
    | _ => some cs
  unsigned.bind fun rest =>
    if [".inf", ".Inf", ".INF"].contains (String.ofList rest) then some .infinity
    else if ["-.inf", "-.Inf", "-.INF"].contains (String.ofList cs) then
      some (.withSign true .infinity)
    else if [".nan", ".NaN", ".NAN"].contains (String.ofList cs) then some .nan
    else (read? rest).filter Binary64.isFinite

/-- What a plain scalar without a tag stands for. -/
def ofPlain (s : String) : Scalar :=
  let cs := s.toList
  if s.isEmpty || isNullWord s then null
  else
    match bool? s, int? cs with
    | some b, _ => bool b
    | none, some n => n
    | none, none =>
      if isZeroPadded cs then string s
      else
        match float? cs with
        | some x => float x
        | none => string s

def checked (found : Option Scalar) (s type : String) : Except DecodeFault Scalar :=
  match found with
  | some scalar => .ok scalar
  | none => .error (.invalidValue (.string s) type)

def ofText (s : String) (style : ScalarStyle) (tag : Option Tag) :
    Except DecodeFault Scalar :=
  let untagged := if style = .plain then ofPlain s else string s
  match tag with
  | none => .ok untagged
  | some tag =>
    if tag = .core "bool" then checked ((bool? s).map bool) s "a boolean"
    else if tag = .core "int" then checked (int? s.toList) s "an integer"
    else if tag = .core "float" then checked ((float? s.toList).map float) s "a float"
    else if tag = .core "null" then checked (if isNullWord s then some null else none) s "null"
    else if tag.isLocal then .ok untagged
    else .ok (string s)

def unexpected : Scalar → Unexpected
  | null => .unit
  | bool b => .boolean b
  | int n => .number (.int n)
  | wide n => .wideInteger n
  | float x => .number (.float x)
  | string s => .string s

def toTree? : Scalar → Option Tree
  | null => some .null
  | bool b => some (.bool b)
  | int n => some (.number (.int n))
  | wide _ => none
  | float x => some (.number (.float x))
  | string s => some (.string s)

end Scalar

end Reshape.Yaml
