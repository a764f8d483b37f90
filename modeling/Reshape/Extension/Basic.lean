import Reshape.Describe
import Reshape.Document.Fault

/-! # Extensions

An extension is a named set of functions, which documents call by the names of
both. A registry holds extensions by name. A function may fail with any of the
faults of loading.
-/

namespace Reshape

/-- Why a function does not accept its arguments. -/
inductive CallFault where
  | notScalar (operation : String)
  | emptyDelimiter
  | delimiterNotString
  | tooFewArguments (function : String) (required : Nat)
  | notNumeral (label : String)
  | notNumeric (label : String)
  | notFinite (result : Binary64)
  | custom (message : String)
deriving DecidableEq

def CallFault.message : CallFault → String
  | notScalar operation => s!"Cannot {operation} a non-scalar value"
  | emptyDelimiter => "Split delimiter must not be empty"
  | delimiterNotString => "split delimiter must be a string"
  | tooFewArguments function required =>
    s!"{function} requires {required} " ++ if required = 1 then "argument" else "arguments"
  | notNumeral label => s!"Cannot parse {label} argument as number"
  | notNumeric label => s!"Invalid {label} argument type"
  | notFinite result => s!"Result {Number.layout.render result} is not a finite number"
  | custom message => message

inductive ExtensionFault where
  | unknownExtension (name : String)
  | unknownFunction (extension function : String) (available : List String)
  | custom (message : String)
deriving DecidableEq

def ExtensionFault.message : ExtensionFault → String
  | unknownExtension name => s!"Extension '{name}' not found"
  | unknownFunction extension function available =>
    s!"Function '{function}' not found in extension '{extension}', available functions: " ++
      bracketed (available.map Text.quoted)
  | custom message => message

/-- Why a document cannot be loaded, or a function not called. -/
inductive LoadError where
  | parse (fault : ParseFault)
  | extension (fault : ExtensionFault)
  | transform (fault : CallFault)
  | unknownMapper (name : String)
  /-- A call target that is not an extension and a function with a dot between them. -/
  | invalidCall (target : String)
  | mapping (error : Error)
deriving DecidableEq

def LoadError.message : LoadError → String
  | parse fault => "DSL parse error: " ++ fault.display
  | extension fault => "Extension error: " ++ fault.message
  | transform fault => "Transform error: " ++ fault.message
  | unknownMapper name => s!"Unknown mapper '{name}'"
  | invalidCall target =>
    s!"Invalid call target '{target}', expected '<extension>.<function>'"
  | mapping error => error.message

/-- A function of the arguments of a call. -/
abbrev Function := List Value → Except LoadError Value

def sortNames (names : List String) : List String := names.mergeSort fun a b => a ≤ b

structure Extension where
  name : String
  functions : Entries Function

namespace Extension

/-- An extension without functions. -/
def new (name : String) : Extension := ⟨name, []⟩

def functionNames (e : Extension) : List String := sortNames e.functions.keys

/-- Add a function, replacing one of the same name. -/
def withFunction (name : String) (f : Function) (e : Extension) : Extension :=
  { e with functions := e.functions.put name f }

def describe (e : Extension) : String :=
  braced "Extension" ["name: " ++ Text.quoted e.name,
    "functions: " ++ bracketed (e.functionNames.map Text.quoted)]

end Extension

/-- Extensions by name. -/
structure Registry where
  extensions : Entries Extension

namespace Registry

def empty : Registry := ⟨[]⟩

def names (r : Registry) : List String := sortNames r.extensions.keys

def register (e : Extension) (r : Registry) : Registry := ⟨r.extensions.put e.name e⟩

def unregister (name : String) (r : Registry) : Registry := ⟨r.extensions.erase name⟩

def contains (r : Registry) (name : String) : Bool := (r.extensions.get? name).isSome

def function (r : Registry) (extension function : String) : Except LoadError Function :=
  match r.extensions.get? extension with
  | none => .error (.extension (.unknownExtension extension))
  | some e =>
    match e.functions.get? function with
    | none => .error (.extension (.unknownFunction extension function e.functionNames))
    | some f => .ok f

def call (r : Registry) (extension function : String) (args : List Value) :
    Except LoadError Value := do
  (← r.function extension function) args

end Registry

def firstArgument (function : String) : List Value → Except CallFault Value
  | v :: _ => .ok v
  | [] => .error (.tooFewArguments function 1)

def firstTwoArguments (function : String) : List Value → Except CallFault (Value × Value)
  | v :: w :: _ => .ok (v, w)
  | _ => .error (.tooFewArguments function 2)

/-- A function that fails only because of its arguments. -/
def Function.ofCall (f : List Value → Except CallFault Value) : Function :=
  fun args => (f args).mapError .transform

end Reshape
