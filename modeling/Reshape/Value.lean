import Reshape.Decimal.Layout

/-! # Values

The documents that mappings read and write: nulls, booleans, numbers, strings,
arrays and objects. Integers and floating-point numbers are kept apart. The
members of an object have distinct keys, in ascending order of code points.
-/

namespace Reshape

inductive Number where
  | int (n : Int)
  | float (x : Binary64)
deriving DecidableEq

inductive Value where
  | null
  | bool (b : Bool)
  | number (n : Number)
  | string (s : String)
  | array (items : List Value)
  | object (members : List (String × Value))
deriving BEq, Inhabited

inductive Kind where
  | null
  | boolean
  | number
  | string
  | array
  | object
deriving DecidableEq

namespace Kind

def name : Kind → String
  | null => "null"
  | boolean => "boolean"
  | number => "number"
  | string => "string"
  | array => "array"
  | object => "object"

end Kind

/-- Members of an object, by ascending key. -/
abbrev Members := List (String × Value)

namespace Members

/-- Put a member in its place, replacing one of the same key. -/
def insert (key : String) (value : Value) : Members → Members
  | [] => [(key, value)]
  | (k, v) :: rest =>
    if key < k then (key, value) :: (k, v) :: rest
    else if key = k then (key, value) :: rest
    else (k, v) :: insert key value rest

/-- Collect members; the last one of a repeated key stays. -/
def ofList (entries : List (String × Value)) : Members :=
  entries.foldl (fun members (k, v) => members.insert k v) []

end Members

namespace Number

def FitsInt64 (n : Int) : Prop := -0x8000000000000000 ≤ n ∧ n < 0x8000000000000000

instance (n : Int) : Decidable (FitsInt64 n) := inferInstanceAs (Decidable (_ ∧ _))

def toBinary64 : Number → Binary64
  | int n => .ofInt n
  | float x => x

/-- Positional from a ten-thousandth of a tenth up to sixteen digits. -/
def layout : Layout where
  lowest := -5
  highest := 15
  exponentPlus := "+"
  nan := "NaN"
  infinity := "inf"

def text : Number → String
  | int n => toString n
  | float x => layout.render x

end Number

namespace Value

def kind : Value → Kind
  | null => .null
  | bool _ => .boolean
  | number _ => .number
  | string _ => .string
  | array _ => .array
  | object _ => .object

def isNull : Value → Bool
  | null => true
  | _ => false

def int (n : Int) : Value := number (.int n)

/-- A floating-point number as a value; there are none that are not finite. -/
def ofBinary64? (x : Binary64) : Option Value :=
  if x.isFinite then some (number (.float x)) else none

end Value

end Reshape
