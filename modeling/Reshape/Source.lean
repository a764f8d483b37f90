import Reshape.Decode
import Reshape.Procedure

/-! # Program data

Data that a program holds becomes a source value: integer keys become texts, and
numbers that are not finite become null. A target is decoded as typed data.
-/

namespace Reshape

inductive DataKey where
  | text (s : String)
  | integer (n : Int)
  | list (items : List Int)

/-- The text of a key; a list has none. -/
def DataKey.toText : DataKey → Except DecodeFault String
  | text s => .ok s
  | integer n => .ok (toString n)
  | list _ => .error .keyNotString

namespace Value

/-- A floating-point number, or null in place of one that is not finite. -/
def ofBinary64 (x : Binary64) : Value := (ofBinary64? x).getD .null

def ofMap (entries : List (DataKey × Value)) : Except Error Value :=
  let members := entries.mapM fun (key, v) => key.toText.map fun text => (text, v)
  (members.map fun ms => .object (Members.ofList ms)).mapError fun fault =>
    .serialization (fault.message .value)

end Value

/-- Decode the target of an outcome as typed data. -/
def Outcome.decode (d : Decoder α) (o : Outcome) : Except Error α :=
  (d (.object o.result)).mapError fun fault => .serialization (fault.message .value)

end Reshape
