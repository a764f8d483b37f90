import Reshape.Value
import Reshape.Text.Basic

/-! # Decoding values

Typed data is read from values: records from objects, or from lists of their
fields in order. A fault tells what was found and what was expected. The
members of an object are visited by ascending key, so the first of several
faults is the one with the least key; a missing field is noticed at the end.
-/

namespace Reshape

/-- What was found in place of what a decoder expects. -/
inductive Unexpected where
  | unit
  | boolean (b : Bool)
  | number (n : Number)
  | string (s : String)
  | sequence
  | map
  | enumeration
  | wideInteger (n : Int)
deriving DecidableEq

structure Wording where
  unit : String
  float : Layout

namespace Wording

def value : Wording := ⟨"null", Number.layout⟩

/-- The wording for document nodes: floating-point numbers have no exponents. -/
def node : Wording :=
  ⟨"unit value", { Number.layout with lowest := -400, highest := 400 }⟩

end Wording

def Unexpected.text (w : Wording) : Unexpected → String
  | unit => w.unit
  | boolean b => if b then "boolean `true`" else "boolean `false`"
  | number (.int n) => "integer `" ++ toString n ++ "`"
  | number (.float x) => "floating point `" ++ w.float.render x ++ "`"
  | string s => "string " ++ Text.quoted s
  | sequence => "sequence"
  | map => "map"
  | enumeration => "enum"
  | wideInteger n =>
    "integer `" ++ toString n ++ (if n < 0 then "` as i128" else "` as u128")

inductive DecodeFault where
  | invalidType (found : Unexpected) (expected : String)
  | invalidValue (found : Unexpected) (expected : String)
  | invalidLength (length : Nat) (expected : String)
  | missingField (name : String)
  | duplicateField (name : String)
  | duplicateTarget (key : String)
  | unknownVariant (found : String) (expected : List String)
  | noForm (type : String)
  | numberOutOfRange
  /-- A tagged value where the form of a type has to be found out. -/
  | taggedForm
  | keyNotString
  | recursionLimit
  | repetitionLimit
deriving DecidableEq

namespace DecodeFault

/-- Names between backquotes, as a list of alternatives. -/
def alternatives (names : List String) : String :=
  " or ".intercalate (names.map fun name => "`" ++ name ++ "`")

def message (w : Wording) : DecodeFault → String
  | invalidType found expected => "invalid type: " ++ found.text w ++ ", expected " ++ expected
  | invalidValue found expected => "invalid value: " ++ found.text w ++ ", expected " ++ expected
  | invalidLength length expected => s!"invalid length {length}, expected {expected}"
  | missingField name => s!"missing field `{name}`"
  | duplicateField name => s!"duplicate field `{name}`"
  | duplicateTarget key => s!"duplicate field '{key}'"
  | unknownVariant found expected =>
    s!"unknown variant `{found}`, expected " ++ alternatives expected
  | noForm type => s!"data did not match any variant of untagged enum {type}"
  | numberOutOfRange => "JSON number out of range"
  | taggedForm => "untagged and internally tagged enums do not support enum input"
  | keyNotString => "key must be a string"
  | recursionLimit => "recursion limit exceeded"
  | repetitionLimit => "repetition limit exceeded"

end DecodeFault

namespace Value

def unexpected : Value → Unexpected
  | null => .unit
  | bool b => .boolean b
  | number n => .number n
  | string s => .string s
  | array _ => .sequence
  | object _ => .map

end Value

/-- Reads typed data from a value. -/
abbrev Decoder (α : Type) := Value → Except DecodeFault α

namespace Decode

def mismatch (v : Value) (expected : String) : Except DecodeFault α :=
  .error (.invalidType v.unexpected expected)

def string : Decoder String
  | .string s => .ok s
  | v => mismatch v "a string"

def boolean : Decoder Bool
  | .bool b => .ok b
  | v => mismatch v "a boolean"

/-- A natural number below a bound, named for messages. -/
def natural (bound : Nat) (name : String) : Decoder Nat
  | .number (.int n) =>
    if 0 ≤ n ∧ n < bound then .ok n.toNat else .error (.invalidValue (.number (.int n)) name)
  | v => mismatch v name

def list (item : Decoder α) : Decoder (List α)
  | .array items => items.mapM item
  | v => mismatch v "a sequence"

def members : Decoder Members
  | .object ms => .ok ms
  | v => mismatch v "a map"

def member? (ms : Members) (key : String) (d : Decoder α) : Except DecodeFault (Option α) :=
  match ms.lookup key with
  | none => .ok none
  | some v => some <$> d v

def required (name : String) : Option α → Except DecodeFault α
  | some v => .ok v
  | none => .error (.missingField name)

def element? (items : List Value) (n : Nat) (d : Decoder α) : Except DecodeFault (Option α) :=
  match items[n]? with
  | none => .ok none
  | some v => some <$> d v

def requiredElement (n : Nat) (expected : String) : Option α → Except DecodeFault α
  | some v => .ok v
  | none => .error (.invalidLength n expected)

def noMore (items : List Value) (fields : Nat) : Except DecodeFault Unit :=
  if items.length ≤ fields then .ok ()
  else .error (.invalidLength items.length "fewer elements in array")

/-- Decode a record from an object, or from a list of its fields. -/
def record (name : String) (ofMembers : Members → Except DecodeFault α)
    (ofItems : List Value → Except DecodeFault α) : Decoder α
  | .object ms => ofMembers ms
  | .array items => ofItems items
  | v => mismatch v ("struct " ++ name)

end Decode

end Reshape
