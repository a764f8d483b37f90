import Reshape.Yaml.Style

/-! # Writing trees

A tree as YAML text in block style. Each level of mappings is indented by two
columns, and a sequence stands below its key without an indent. A key that is
long or has several lines is written behind a question mark.
-/

namespace Reshape.Tree

open Yaml

def spaces (n : Nat) : String := "".pushn ' ' n

def endLine (text : List Char) : String :=
  .ofList (if text.getLast?.any isRawBreak then text else text ++ ['\n'])

/-- The text of a tree without entries, where lines after the first have an indent. -/
def leaf (indent : Nat) : Tree → List Char
  | null => "null".toList
  | bool b => (if b then "true" else "false").toList
  | number (.int n) => (toString n).toList
  | number (.float x) => (Scalar.layout.render x).toList
  | string s => Scalar.ofString indent s
  | sequence _ => "[]".toList
  | mapping _ => "\x7b\x7d".toList

def maxKeyLength : Nat := 128

def isSimpleKey : Tree → Bool
  | string s => !s.toList.any isRawBreak && s.utf8ByteSize ≤ maxKeyLength
  | sequence (_ :: _) | mapping (_ :: _) => false
  | _ => true

mutual

/-- A tree whose first line is indented already. -/
def block (indent : Nat) : Tree → String
  | sequence (item :: items) => writeItems 0 indent (item :: items)
  | mapping (entry :: entries) => writeEntries 0 indent (entry :: entries)
  | t => endLine (leaf indent t)

def valueBlock (indent : Nat) : Tree → String
  | sequence (item :: items) => "\n" ++ writeItems indent indent (item :: items)
  | mapping (entry :: entries) => "\n" ++ writeEntries (indent + 2) (indent + 2) (entry :: entries)
  | t => " " ++ endLine (leaf (indent + 2) t)

/-- Items at an indent, of which the first line still needs some spaces. -/
def writeItems (lead indent : Nat) : List Tree → String
  | [] => ""
  | item :: items =>
    spaces lead ++ "- " ++ block (indent + 2) item ++ writeItems indent indent items

def writeEntries (lead indent : Nat) : List (Tree × Tree) → String
  | [] => ""
  | (key, value) :: entries =>
    let entry :=
      if isSimpleKey key then .ofList (leaf (indent + 2) key) ++ ":" ++ valueBlock indent value
      else
        "? " ++ block (indent + 2) key ++ spaces indent ++ ": " ++ block (indent + 2) value
    spaces lead ++ entry ++ writeEntries indent indent entries

end

/-- A tree as YAML text. -/
def toYaml : Tree → String
  | t@(sequence (_ :: _)) | t@(mapping (_ :: _)) => block 0 t
  | t => block 2 t

end Reshape.Tree
