import Reshape.Decimal.Numeral
import Reshape.Extension.Basic
import Reshape.Text.Case
import Reshape.Text.Split

/-! # The built-in extensions

Functions on the texts of scalars, which pass null through and refuse arrays and
objects, and functions on numbers. Integers of 64 bits stay integers while the
results fit; all other operands are taken as floating-point numbers, and so are
texts that are numerals.
-/

namespace Reshape

section Texts

namespace Value

def scalarText? : Value → Option String
  | .string s => some s
  | .number n => some n.text
  | .bool b => some (describeBool b)
  | _ => none

def mapText (operation : String) (f : List Char → List Char) (v : Value) :
    Except CallFault Value :=
  if v.isNull then .ok .null
  else
    match v.scalarText? with
    | some s => .ok (.string (.ofList (f s.toList)))
    | none => .error (.notScalar operation)

def uppercase (v : Value) : Except CallFault Value := v.mapText "uppercase" Text.upper

def lowercase (v : Value) : Except CallFault Value := v.mapText "lowercase" Text.lower

def trim (v : Value) : Except CallFault Value := v.mapText "trim" Text.trim

def reverse (v : Value) : Except CallFault Value := v.mapText "reverse" List.reverse

/-- The texts of those values that are not null. -/
def scalarTexts : List Value → Except CallFault (List String)
  | [] => .ok []
  | .null :: rest => scalarTexts rest
  | v :: rest =>
    match v.scalarText? with
    | some s => (scalarTexts rest).map fun texts => s :: texts
    | none => .error (.notScalar "concatenate")

/-- Join the texts of values, if any is not null. -/
def concatenate (values : List Value) : Except CallFault Value :=
  (scalarTexts values).map fun texts =>
    if texts.isEmpty then .null else .string (String.join texts)

def split (delimiter : String) (v : Value) : Except CallFault Value :=
  if delimiter.isEmpty then .error .emptyDelimiter
  else if v.isNull then .ok .null
  else
    match v.scalarText? with
    | some s =>
      .ok (.array ((Text.splitParts delimiter.toList s.toList).map fun part =>
        .string (.ofList part)))
    | none => .error (.notScalar "split")

end Value

/-- The delimiter of a call of `split`: its second argument, or else a comma. -/
def splitDelimiter : List Value → Except CallFault String
  | _ :: .string s :: _ => .ok s
  | _ :: .null :: _ => .ok ","
  | _ :: _ :: _ => .error .delimiterNotString
  | _ => .ok ","

/-- A function of the first argument. -/
def Function.unary (name : String) (f : Value → Except CallFault Value) : Function :=
  .ofCall fun args => do f (← firstArgument name args)

namespace Extension

def text : Extension :=
  new "text"
    |>.withFunction "uppercase" (.unary "uppercase" Value.uppercase)
    |>.withFunction "lowercase" (.unary "lowercase" Value.lowercase)
    |>.withFunction "trim" (.unary "trim" Value.trim)
    |>.withFunction "reverse" (.unary "reverse" Value.reverse)
    |>.withFunction "concat" (.ofCall Value.concatenate)
    |>.withFunction "split" (.ofCall fun args => do
      let v ← firstArgument "split" args
      v.split (← splitDelimiter args))

end Extension

end Texts

section Numbers

def checkedInt64 (n : Int) : Option Int := if Number.FitsInt64 n then some n else none

namespace Value

def int64? : Value → Option Int
  | .number (.int n) => checkedInt64 n
  | _ => none

/-- A number, or the text of one, as a floating-point number. -/
def operand (label : String) : Value → Except CallFault Binary64
  | .number n => .ok n.toBinary64
  | .string s =>
    match Numeral.read? (Text.trim s.toList) with
    | some x => .ok x
    | none => .error (.notNumeral label)
  | _ => .error (.notNumeric label)

def ofResult (x : Binary64) : Except CallFault Value :=
  match ofBinary64? x with
  | some v => .ok v
  | none => .error (.notFinite x)

/-- An operation on integers, or else on floating-point numbers. -/
def combine (exact : Int → Int → Int) (rounded : Binary64 → Binary64 → Binary64)
    (v w : Value) : Except CallFault Value :=
  let result := do checkedInt64 (exact (← v.int64?) (← w.int64?))
  match result with
  | some n => .ok (.int n)
  | none => do ofResult (rounded (← v.operand "first") (← w.operand "second"))

def add (v w : Value) : Except CallFault Value := v.combine (· + ·) Binary64.add w

def multiply (v w : Value) : Except CallFault Value := v.combine (· * ·) Binary64.mul w

/-- The sum of integers, if every partial sum fits. -/
def exactSum? (values : List Value) : Option Int :=
  values.foldlM (fun total v => do checkedInt64 (total + (← v.int64?))) 0

def roundedSum (values : List Value) : Except CallFault Binary64 :=
  values.foldlM (fun total v => return total.add (← v.operand "sum")) .zero

def sum (values : List Value) : Except CallFault Value :=
  let values := values.filter fun v => !v.isNull
  match exactSum? values with
  | some n => .ok (.int n)
  | none => (roundedSum values).bind ofResult

end Value

/-- The values to sum up: the elements of a single array, or else the arguments. -/
def summands : List Value → List Value
  | [.array items] => items
  | args => args

/-- A function of the first two arguments. -/
def Function.binary (name : String) (f : Value → Value → Except CallFault Value) : Function :=
  .ofCall fun args => do
    let (v, w) ← firstTwoArguments name args
    f v w

namespace Extension

def arithmetic : Extension :=
  new "math"
    |>.withFunction "add" (.binary "add" Value.add)
    |>.withFunction "multiply" (.binary "multiply" Value.multiply)
    |>.withFunction "sum" (.ofCall fun args => Value.sum (summands args))

end Extension

end Numbers

/-- The registry with the extensions for texts and numbers. -/
def Registry.builtins : Registry := empty.register .text |>.register .arithmetic

end Reshape
