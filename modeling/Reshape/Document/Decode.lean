import Reshape.Document.Form
import Reshape.Decode

/-! # Decoding documents from values -/

namespace Reshape

namespace Mode

def ofBool (failFast : Bool) : Mode := if failFast then .failFast else .safe

/-- Options that are left out do not fail fast. -/
def decode : Decoder Mode :=
  Decode.record "MapperOptions"
    (fun ms => do
      let flag ← Decode.member? ms "use_unsafe" Decode.boolean
      return ofBool (flag.getD false))
    (fun items => do
      let flag ← Decode.element? items 0 Decode.boolean
      Decode.noMore items 1
      return ofBool (flag.getD false))

end Mode

namespace Shape

def names : List String := ["nested", "flatten"]

def ofName (name : String) : Except DecodeFault Shape :=
  if name = "nested" then .ok .nested
  else if name = "flatten" then .ok .flatten
  else .error (.unknownVariant name names)

/-- A shape is its name, alone or as the only key of an object that holds null. -/
def decode : Decoder Shape
  | .string name => ofName name
  | .object [(name, v)] => do
    let shape ← ofName name
    match v with
    | .null => return shape
    | _ => Decode.mismatch v "unit"
  | .object _ => .error (.invalidValue .map "map with a single key")
  | v => Decode.mismatch v "string or map"

end Shape

def Defaults.decode : Decoder Defaults := fun v => (Decode.members v).map Defaults.mk

def Argument.decode : Decoder Argument := fun v =>
  match Argument.ofTree? (.ofValue v) with
  | some argument => .ok argument
  | none => .error (.noForm "CallArgument")

namespace FieldSpec

def decode : Decoder FieldSpec := fun v =>
  match ofTree? (.ofValue v) with
  | some spec => .ok spec
  | none => .error (.noForm "FieldSpec")

def decodeFields : Decoder (Entries FieldSpec)
  | .object ms => ms.mapM fun (key, v) => (decode v).map fun spec => (key, spec)
  | v => Decode.mismatch v "a map of target field names to field specs"

end FieldSpec

namespace Document

def decode : Decoder Document :=
  Decode.record "MappingDocument"
    (fun ms => do
      let defaults ← Decode.member? ms "defaults" Defaults.decode
      let fields ← Decode.member? ms "fields" FieldSpec.decodeFields
      let name ← Decode.member? ms "name" Decode.string
      let mode ← Decode.member? ms "options" Mode.decode
      let name ← Decode.required "name" name
      let fields ← Decode.required "fields" fields
      return ⟨name, mode.getD .safe, defaults.getD .empty, fields⟩)
    (fun items => do
      let expected := "struct MappingDocument with 4 elements"
      let name ← Decode.element? items 0 Decode.string
      let name ← Decode.requiredElement 0 expected name
      let mode ← Decode.element? items 1 Mode.decode
      let defaults ← Decode.element? items 2 Defaults.decode
      let fields ← Decode.element? items 3 FieldSpec.decodeFields
      let fields ← Decode.requiredElement 3 expected fields
      Decode.noMore items 4
      return ⟨name, mode.getD .safe, defaults.getD .empty, fields⟩)

end Document

end Reshape
