import Reshape.Yaml.Glyph

/-! # Plain and quoted scalars

The text of a scalar may run over several lines. A single line break between
its parts becomes a space, and of several the first is dropped.
-/

namespace Reshape.Yaml

/-- What stands between two parts of a scalar, latest character first. -/
inductive Gap where
  | blanks (cs : List Char)
  /-- A line break, unless it is escaped, and the line breaks after it. -/
  | lines (first : Option Char) (more : List Char)

namespace Gap

def empty : Gap := blanks []

def isEmpty : Gap → Bool
  | blanks [] => true
  | _ => false

def hasBreak : Gap → Bool
  | blanks _ => false
  | lines _ _ => true

def addBlank (c : Char) : Gap → Gap
  | blanks cs => blanks (c :: cs)
  | gap => gap

def addBreak (c : Char) : Gap → Gap
  | blanks _ => lines (some c) []
  | lines first more => lines first (c :: more)

def folded : Gap → List Char
  | blanks cs => cs
  | lines .none more => more
  | lines (some '\n') [] => [' ']
  | lines (some '\n') more => more
  | lines (some c) more => more ++ [c]

end Gap

/-- A scalar that has been read, its text latest character first. -/
structure ReadScalar where
  text : List Char
  gap : Gap
  rest : List Glyph

def isFlowIndicator (c : Char) : Bool :=
  c == ',' || c == '[' || c == ']' || c == '\x7b' || c == '\x7d'

/--
Read a plain scalar that is indented by `indent` in block context. In flow
context a colon must not stand directly before an indicator.
-/
def readPlain? (flow : Bool) (indent : Int) (text : List Char) (gap : Gap) :
    List Glyph → Option ReadScalar
  | [] => some ⟨text, gap, []⟩
  | g :: rest =>
    let c := g.char
    if isBlank c then
      if gap.hasBreak && (g.mark.column : Int) < indent && c == '\t' then none
      else readPlain? flow indent text (gap.addBlank c) rest
    else if isBreak c then readPlain? flow indent text (gap.addBreak c) rest
    else if !gap.isEmpty && ((!flow && (g.mark.column : Int) < indent) ||
        Glyph.atDocumentIndicator (g :: rest) || c == '#') then
      some ⟨text, gap, g :: rest⟩
    else if flow && c == ':' && rest.head?.any fun h => isFlowIndicator h.char || h.char == '?' then
      none
    else if (c == ':' && Glyph.atBlank rest) || (flow && isFlowIndicator c) then
      some ⟨text, gap, g :: rest⟩
    else readPlain? flow indent (c :: gap.folded ++ text) .empty rest

inductive Escape where
  | none
  /-- A single quote, which closes the scalar unless it is doubled. -/
  | quote
  | backslash
  /-- Hexadecimal digits that are still to come, and the value of those before. -/
  | hex (left : Nat) (value : Nat)

def escapedChar? (c : Char) : Option Char :=
  match c with
  | '0' => some '\x00'
  | 'a' => some '\x07'
  | 'b' => some '\x08'
  | 't' | '\t' => some '\t'
  | 'n' => some '\n'
  | 'v' => some '\x0b'
  | 'f' => some '\x0c'
  | 'r' => some '\r'
  | 'e' => some '\x1b'
  | ' ' => some ' '
  | '"' => some '"'
  | '/' => some '/'
  | '\\' => some '\\'
  | 'N' => some nextLine
  | '_' => some '\u00a0'
  | 'L' => some lineSeparator
  | 'P' => some paragraphSeparator
  | _ => none

def escapeDigits? (c : Char) : Option Nat :=
  match c with
  | 'x' => some 2
  | 'u' => some 4
  | 'U' => some 8
  | _ => none

def hexValue? (c : Char) : Option Nat :=
  if '0' ≤ c ∧ c ≤ '9' then some (c.toNat - '0'.toNat)
  else if 'a' ≤ c ∧ c ≤ 'f' then some (c.toNat - 'a'.toNat + 10)
  else if 'A' ≤ c ∧ c ≤ 'F' then some (c.toNat - 'A'.toNat + 10)
  else none

def charOfValue? (n : Nat) : Option Char := if h : n.isValidChar then some (.ofNatAux n h) else none

/-- Read a quoted scalar after its opening quote. -/
def readQuoted? (single : Bool) (escape : Escape) (text : List Char) (gap : Gap) :
    List Glyph → Option ReadScalar
  | [] =>
    match escape with
    | .quote => some ⟨text, .empty, []⟩
    | _ => none
  | g :: rest =>
    let c := g.char
    match escape with
    | .quote =>
      if c == '\'' then readQuoted? single .none ('\'' :: text) .empty rest
      else some ⟨text, .empty, g :: rest⟩
    | .backslash =>
      if isBreak c then readQuoted? single .none text (.lines none []) rest
      else
        match escapedChar? c, escapeDigits? c with
        | some d, _ => readQuoted? single .none (d :: text) .empty rest
        | none, some digits => readQuoted? single (.hex digits 0) text .empty rest
        | none, none => none
    | .hex left value =>
      match hexValue? c with
      | none => none
      | some d =>
        let value := 16 * value + d
        if 1 < left then readQuoted? single (.hex (left - 1) value) text .empty rest
        else
          match charOfValue? value with
          | none => none
          | some decoded => readQuoted? single .none (decoded :: text) .empty rest
    | .none =>
      if isBlank c then readQuoted? single .none text (gap.addBlank c) rest
      else if isBreak c then readQuoted? single .none text (gap.addBreak c) rest
      else if Glyph.atDocumentIndicator (g :: rest) then none
      else
        let before := gap.folded ++ text
        if single then
          if c == '\'' then readQuoted? single .quote before .empty rest
          else readQuoted? single .none (c :: before) .empty rest
        else if c == '"' then some ⟨before, .empty, rest⟩
        else if c == '\\' then readQuoted? single .backslash before .empty rest
        else readQuoted? single .none (c :: before) .empty rest

end Reshape.Yaml
