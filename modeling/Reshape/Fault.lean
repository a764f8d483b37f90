import Reshape.Path.Parser

/-! # Faults

A mapping fault concerns one target field. An error ends a compilation or a
run. Both are causes; `message` gives their wording.
-/

namespace Reshape

/-- Why a target field has no value. -/
inductive MappingFault where
  | unresolved (path message : String)
  | transform (message : String)
  /-- An embedded mapper failed as a whole. -/
  | nested (message : String)
deriving DecidableEq

def MappingFault.message : MappingFault → String
  | unresolved path message => s!"cannot resolve path '{path}': {message}"
  | transform message => message
  | nested message => message

/-- Why a compilation or a run ends without a result. -/
inductive Error where
  | invalidPath (path : String) (reason : Malformed)
  | invalidDefaults (found : Kind)
  | alreadyCompiled
  /-- The dotted target field at which a mapper embeds itself. -/
  | circularMapper (field : String)
  | mapping (fault : MappingFault)
  | serialization (message : String)
deriving DecidableEq

def Error.message : Error → String
  | invalidPath path reason => s!"Invalid path '{path}': {reason.message}"
  | invalidDefaults found => s!"Default values must be an object, found {found.name}"
  | alreadyCompiled => "Mapper is already compiled; its configuration can no longer change"
  | circularMapper field => s!"Circular mapper composition at field '{field}'"
  | mapping fault => fault.message
  | serialization message => s!"Serialization error: {message}"

def Path.read (text : String) : Except Error Path := (parse text).mapError (.invalidPath text)

end Reshape
