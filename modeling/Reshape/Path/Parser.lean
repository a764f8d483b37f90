import Reshape.Path.Basic
import Reshape.Decimal.Numeral

/-! # Reading paths

Identifiers are parted by dots; a bracket may follow with or without one. Each
step of the reader takes one segment or one dot from the rest of the text.
Positions in faults count the bytes of the text as UTF-8.
-/

namespace Reshape

inductive Malformed where
  | empty
  | emptySegment (offset : Nat)
  | unclosedBracket (offset : Nat)
  | invalidIndex (text : String)
  | indexOutOfRange (digits : String)
  | missingDot (offset : Nat)
  /-- An argument selector behind other segments. -/
  | lateArgument (selector : String)
  | unexpected (c : Char) (offset : Nat)
  | trailingDot
deriving DecidableEq

namespace Malformed

def message : Malformed → String
  | empty => "path is empty"
  | emptySegment offset => s!"empty segment at offset {offset}"
  | unclosedBracket offset => s!"unclosed bracket at offset {offset}"
  | invalidIndex text => s!"invalid index '{text}'"
  | indexOutOfRange digits => s!"index '{digits}' is out of range"
  | missingDot offset => s!"missing '.' before offset {offset}"
  | lateArgument selector => s!"argument selector '{selector}' is only allowed at the start"
  | unexpected c offset => s!"unexpected character '{c}' at offset {offset}"
  | trailingDot => "path ends with '.'"

end Malformed

namespace Path

def isLetter (c : Char) : Bool := ('a' ≤ c && c ≤ 'z') || ('A' ≤ c && c ≤ 'Z')

def isIdentifierStart (c : Char) : Bool := isLetter c || c == '_' || c == '$'

def isIdentifierRest (c : Char) : Bool := isIdentifierStart c || Numeral.isDigit c

def byteLength : List Char → Nat
  | [] => 0
  | c :: cs => c.utf8Size + byteLength cs

/-- Indices are natural numbers of 64 bits. -/
def readIndex (digits : List Char) : Except Malformed Nat :=
  let n := Numeral.digitsValue digits
  if n < UInt64.size then .ok n else .error (.indexOutOfRange (.ofList digits))

def readBracket (inner : List Char) : Except Malformed Segment :=
  if inner.isEmpty then .ok .wildcard
  else if inner.all Numeral.isDigit then (readIndex inner).map fun n => .access (.index n)
  else .error (.invalidIndex (.ofList inner))

def argumentDigits? : List Char → Option (List Char)
  | '$' :: digits => if !digits.isEmpty && digits.all Numeral.isDigit then some digits else none
  | _ => none

/-- The segment that an identifier stands for, at the start of a path or behind other segments. -/
def readIdentifier (atStart : Bool) (identifier : List Char) : Except Malformed Segment :=
  match argumentDigits? identifier with
  | none => .ok (.access (.key (.ofList identifier)))
  | some digits =>
    if atStart then (readIndex digits).map fun n => .access (.argument n)
    else .error (.lateArgument (.ofList identifier))

structure Cursor where
  offset : Nat
  /-- Whether nothing, or a dot, has been read last. -/
  expecting : Bool
  atStart : Bool

/-- The outcome of one step: a segment, or none for a dot, and what is left. -/
structure Step where
  segment? : Option Segment
  cursor : Cursor
  rest : List Char

/-- Read the segment or dot that begins with a character. -/
def step (cur : Cursor) (c : Char) (cs : List Char) : Except Malformed Step :=
  if c = '.' then
    if cur.expecting then .error (.emptySegment cur.offset)
    else .ok ⟨none, ⟨cur.offset + 1, true, cur.atStart⟩, cs⟩
  else if c = '[' then
    let inner := cs.takeWhile (· ≠ ']')
    match cs.dropWhile (· ≠ ']') with
    | [] => .error (.unclosedBracket cur.offset)
    | _ :: rest =>
      (readBracket inner).map fun segment =>
        ⟨some segment, ⟨cur.offset + byteLength inner + 2, false, false⟩, rest⟩
  else if isIdentifierStart c then
    if cur.expecting then
      let identifier := c :: cs.takeWhile isIdentifierRest
      (readIdentifier cur.atStart identifier).map fun segment =>
        ⟨some segment, ⟨cur.offset + identifier.length, false, false⟩,
          cs.dropWhile isIdentifierRest⟩
    else .error (.missingDot cur.offset)
  else .error (.unexpected c cur.offset)

theorem length_dropWhile_le {α : Type u} (p : α → Bool) (l : List α) :
    (l.dropWhile p).length ≤ l.length :=
  (List.dropWhile_suffix p).length_le

theorem exists_of_map_eq_ok {ε : Type u} {α : Type v} {β : Type w} {f : α → β} {r : Except ε α}
    {b : β} (h : r.map f = .ok b) : ∃ a, r = .ok a ∧ f a = b := by
  cases r with
  | error e => cases h
  | ok a => cases h; exact ⟨a, rfl, rfl⟩

theorem step_rest_length {cur : Cursor} {c : Char} {cs : List Char} {s : Step}
    (h : step cur c cs = .ok s) : s.rest.length ≤ cs.length := by
  unfold step at h
  split at h
  · split at h
    · cases h
    · cases h; exact Nat.le_refl _
  · split at h
    · have hle := length_dropWhile_le (· ≠ ']') cs
      dsimp only at h
      split at h
      · cases h
      · rename_i hd
        obtain ⟨_, _, rfl⟩ := exists_of_map_eq_ok h
        rw [hd] at hle
        exact Nat.le_of_succ_le hle
    · split at h
      · split at h
        · obtain ⟨_, _, rfl⟩ := exists_of_map_eq_ok h
          exact length_dropWhile_le _ cs
        · cases h
      · cases h

def readSegments (cur : Cursor) : List Char → Except Malformed (List Segment)
  | [] => if cur.expecting then .error .trailingDot else .ok []
  | c :: cs =>
    match _h : step cur c cs with
    | .error fault => .error fault
    | .ok s => (readSegments s.cursor s.rest).map fun segments => s.segment?.toList ++ segments
termination_by cs => cs.length
decreasing_by exact Nat.lt_succ_of_le (step_rest_length _h)

def parseSegments (text : String) : Except Malformed (List Segment) :=
  if text.isEmpty then .error .empty else readSegments ⟨0, true, true⟩ text.toList

/-- Read a path. -/
def parse (text : String) : Except Malformed Path :=
  (parseSegments text).map fun segments =>
    let (first, rest) := Chunk.split segments
    ⟨text, first, rest⟩

end Path

end Reshape
