import Reshape.Decode
import Reshape.Yaml.Glyph

/-! # Faults of document texts

Why a text is not a mapping document, and where. The place of a fault is a mark
in the text and the keys that lead to it. What is wrong with a text that is no YAML
is not told apart, and the only fault of a file is that it does not exist.
-/

namespace Reshape

inductive PathStep where
  | key (name : String)
  | index (n : Nat)
  /-- The value of a key that is no scalar. -/
  | unknown
deriving DecidableEq

/-- The steps from the root to a node, innermost first. -/
abbrev NodePath := List PathStep

namespace NodePath

def text : NodePath → String
  | [] => "."
  | .key name :: [] => name
  | .key name :: outer => text outer ++ "." ++ name
  | .index n :: outer => text outer ++ s!"[{n}]"
  | .unknown :: [] => "?"
  | .unknown :: outer => text outer ++ ".?"

end NodePath

structure NodeFault where
  fault : DecodeFault
  mark : Option Yaml.Mark
  path : NodePath
deriving DecidableEq

/-- The wording of a mark behind a fault. The start of a text is not mentioned. -/
def Yaml.Mark.suffix (m : Yaml.Mark) : String :=
  if m.line = 0 ∧ m.column = 0 then "" else s!" at line {m.line + 1} column {m.column + 1}"

namespace NodeFault

def plain (fault : DecodeFault) : NodeFault := ⟨fault, none, []⟩

/-- Give a fault its place, unless it has one, or cannot have any. -/
def locate (mark : Yaml.Mark) (path : NodePath) (f : NodeFault) : NodeFault :=
  if f.mark.isSome || f.fault == .repetitionLimit then f else { f with mark := some mark, path }

def message (f : NodeFault) : String :=
  let fault := f.fault.message .node
  let located := if f.path.isEmpty then fault else f.path.text ++ ": " ++ fault
  match f.mark with
  | none => located
  | some m => located ++ m.suffix

end NodeFault

/-- Why a document cannot be read from a text or a file. -/
inductive ParseFault where
  | malformed
  | unknownAnchor (mark : Yaml.Mark)
  | severalDocuments
  | node (fault : NodeFault)
  | missingFile (path : String)
deriving DecidableEq

namespace ParseFault

def locate (mark : Yaml.Mark) (path : NodePath) : ParseFault → ParseFault
  | node f => node (f.locate mark path)
  | f => f

def message : ParseFault → String
  | malformed => "Failed to parse mapping document: not a YAML document"
  | unknownAnchor mark => "Failed to parse mapping document: unknown anchor" ++ mark.suffix
  | severalDocuments =>
    "Failed to parse mapping document: deserializing from YAML containing more than one " ++
      "document is not supported"
  | node f => "Failed to parse mapping document: " ++ f.message
  | missingFile path => s!"Failed to read {path}: No such file or directory (os error 2)"

/-- Line and column, counted from one, if they are known. -/
def place : ParseFault → Option (Nat × Nat)
  | node f => f.mark.map fun m => (m.line + 1, m.column + 1)
  | unknownAnchor m => some (m.line + 1, m.column + 1)
  | _ => none

def display (f : ParseFault) : String :=
  match f.place with
  | some (line, column) => f.message ++ s!" at line {line}, column {column}"
  | none => f.message

end ParseFault

end Reshape
