import Reshape.Binding

/-! # Mapping documents

A mapping document declares the fields of a target: as paths, calls of extension
functions, references to other mappers, or inline trees.
-/

namespace Reshape

inductive Argument where
  /-- A path into the source; what it does not find is null. -/
  | path (text : String)
  | literal (value : Value)
deriving BEq

/-- How one target field is produced. -/
inductive FieldSpec where
  | path (text : String)
  | rule (text : String) (flatten : Bool)
  /-- A call of `extension.function`. -/
  | call (target : String) (args : List Argument)
  | mapper (name : String) (source : Option String)
  | tree (fields : List (String × FieldSpec))
deriving BEq

structure Document where
  name : String
  mode : Mode
  defaults : Defaults
  fields : Entries FieldSpec
deriving BEq

end Reshape
