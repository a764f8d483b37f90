import Reshape.Document.Basic
import Reshape.Tree

/-! # Writing documents

A document as a tree. Options are always written; other parts are left out where
reading would supply the same.
-/

namespace Reshape

namespace Argument

def toTree : Argument → Tree
  | path text => .string text
  | literal value => .mapping [(.string "value", .ofValue value)]

end Argument

namespace FieldSpec

mutual

def toTree : FieldSpec → Tree
  | path text => .string text
  | rule text flatten =>
    .mapping ((.string "path", .string text) ::
      if flatten then [(.string "flatten", .bool true)] else [])
  | call target args =>
    .mapping [(.string "call", .string target), (.string "args", .sequence (args.map (·.toTree)))]
  | mapper name source =>
    .mapping ((.string "mapper", .string name) ::
      match source with
      | some text => [(.string "source", .string text)]
      | none => [])
  | tree fields => .mapping [(.string "fields", .mapping (toEntries fields))]

def toEntries : List (String × FieldSpec) → List (Tree × Tree)
  | [] => []
  | (key, spec) :: rest => (.string key, spec.toTree) :: toEntries rest

end

def toValue (spec : FieldSpec) : Value := spec.toTree.toValue?.getD .null

end FieldSpec

namespace Document

def toTree (d : Document) : Tree :=
  let defaults :=
    if d.defaults.root.isEmpty then [] else [(.string "defaults", .ofValue d.defaults.toValue)]
  .mapping ([(.string "name", .string d.name),
    (.string "options", .mapping [(.string "use_unsafe", .bool d.mode.isFailFast)])] ++
    defaults ++ [(.string "fields", .mapping (FieldSpec.toEntries d.fields))])

def toValue (d : Document) : Value := d.toTree.toValue?.getD .null

end Document

end Reshape
