import Reshape.Mapper.Store
import Reshape.Text.Basic

/-! # Descriptions

Texts that show values, configurations, mappers and procedures with their
structure. Functions have no text of their own.
-/

namespace Reshape

def listing (parts : List String) : String := ", ".intercalate parts

def braced (name : String) (parts : List String) : String :=
  name ++ " \x7b " ++ listing parts ++ " \x7d"

def bracketed (parts : List String) : String := "[" ++ listing parts ++ "]"

def keyed (parts : List (String × String)) : String :=
  "\x7b" ++ listing (parts.map fun (k, text) => Text.quoted k ++ ": " ++ text) ++ "\x7d"

def describeOption : Option String → String
  | none => "None"
  | some text => "Some(" ++ text ++ ")"

def describeBool (b : Bool) : String := if b then "true" else "false"

mutual

def Value.describe : Value → String
  | .null => "Null"
  | .bool b => "Bool(" ++ describeBool b ++ ")"
  | .number n => "Number(" ++ n.text ++ ")"
  | .string s => "String(" ++ Text.quoted s ++ ")"
  | .array items => "Array " ++ bracketed (describeItems items)
  | .object members => "Object " ++ keyed (describeMembers members)

def describeItems : List Value → List String
  | [] => []
  | v :: rest => v.describe :: describeItems rest

def describeMembers : List (String × Value) → List (String × String)
  | [] => []
  | (k, v) :: rest => (k, v.describe) :: describeMembers rest

end

def Shape.name : Shape → String
  | nested => "Nested"
  | flatten => "Flatten"

def Defaults.describe (d : Defaults) : String :=
  braced "DefaultValues" ["root: " ++ keyed (describeMembers d.root)]

def Mapper.describe (m : Mapper) : String :=
  braced "Mapper" ["defaults: " ++ m.defaults.describe,
    "options: " ++ braced "MapperOptions" ["use_unsafe: " ++ describeBool m.mode.isFailFast],
    "compiled: " ++ describeBool m.isCompiled, ".."]

mutual

/-- The text of a binding, with embedded mappers taken from a store. -/
def Binding.describe (store : Store) : Binding → String
  | .path text shape =>
    "Path(" ++ braced "PathBinding" ["path: " ++ Text.quoted text, "mode: " ++ shape.name] ++ ")"
  | .transform _ => "Transform(<fn>)"
  | .mapper id source =>
    braced "NestedMapper" ["mapper: " ++ (store.mapper id).describe,
      "source: " ++ describeOption (source.map Text.quoted)]
  | .tree bindings =>
    "NestedTree(" ++
      braced "MappingConfiguration" ["entries: " ++ bracketed (describeBindings store bindings)] ++
      ")"

def describeBindings (store : Store) : List (String × Binding) → List String
  | [] => []
  | (key, binding) :: rest =>
    ("(" ++ Text.quoted key ++ ", " ++ binding.describe store ++ ")") ::
      describeBindings store rest

end

def Configuration.describe (store : Store) (config : Configuration) : String :=
  braced "MappingConfiguration" ["entries: " ++ bracketed (describeBindings store config)]

mutual

def Procedure.describe : Procedure → String
  | .mk mode fields =>
    braced "Procedure" ["fields: " ++ bracketed (describeFields fields),
      "unsafe_mode: " ++ describeBool mode.isFailFast]

def describeFields : List Field → List String
  | [] => []
  | .mk key plan default :: rest =>
    braced "CompiledField" ["key: " ++ Text.quoted key, "plan: " ++ plan.describe,
      "default: " ++ describeOption (default.map Value.describe)] :: describeFields rest

def Plan.describe : Plan → String
  | .path path shape =>
    braced "Path" ["path: " ++ Text.quoted path.text, "mode: " ++ shape.name]
  | .transform _ => "Transform(<fn>)"
  | .mapper procedure source =>
    braced "Mapper" ["fields: " ++ toString procedure.fields.length,
      "source: " ++ describeOption (source.map fun p => Text.quoted p.text)]
  | .tree procedure => "Tree(" ++ procedure.describe ++ ")"

end

end Reshape
