/-! # Marked characters

The characters of a YAML text with their places. Line breaks are made uniform:
a carriage return, a line feed, both together, and the next-line character all
become a line feed, while the line and paragraph separators stay themselves.
-/

namespace Reshape.Yaml

/-- A place in a text. -/
structure Mark where
  /-- The octets before it. -/
  index : Nat
  line : Nat
  column : Nat
deriving DecidableEq, Inhabited

structure Glyph where
  char : Char
  mark : Mark
deriving Inhabited

def lineSeparator : Char := '\u2028'

def paragraphSeparator : Char := '\u2029'

def nextLine : Char := '\u0085'

def byteOrderMark : Char := '\ufeff'

/-- A line break in a text that has been made uniform. -/
def isBreak (c : Char) : Bool := c == '\n' || c == lineSeparator || c == paragraphSeparator

def isBlank (c : Char) : Bool := c == ' ' || c == '\t'

def isBlankOrBreak (c : Char) : Bool := isBlank c || isBreak c

def isAllowed (c : Char) : Bool :=
  let n := c.toNat
  c == '\t' || c == '\n' || c == '\r' || (0x20 ≤ n && n ≤ 0x7E) || n == 0x85 ||
    (0xA0 ≤ n && n ≤ 0xFFFD) || 0x10000 ≤ n

def isWord (c : Char) : Bool :=
  ('0' ≤ c && c ≤ '9') || ('A' ≤ c && c ≤ 'Z') || ('a' ≤ c && c ≤ 'z') || c == '_' || c == '-'

namespace Mark

def start : Mark := ⟨0, 0, 0⟩

def next (m : Mark) (octets : Nat) : Mark := ⟨m.index + octets, m.line, m.column + 1⟩

def nextLine (m : Mark) (octets : Nat) : Mark := ⟨m.index + octets, m.line + 1, 0⟩

end Mark

namespace Glyph

/-- Mark the characters of a text, and the place of its end. -/
def ofChars (m : Mark) : List Char → List Glyph × Mark
  | [] => ([], m)
  | '\r' :: '\n' :: cs =>
    let (glyphs, stop) := ofChars (m.nextLine 2) cs
    (⟨'\n', m⟩ :: glyphs, stop)
  | c :: cs =>
    if c == '\r' || c == nextLine || isBreak c then
      let (glyphs, stop) := ofChars (m.nextLine c.utf8Size) cs
      (⟨if c == '\r' || c == nextLine then '\n' else c, m⟩ :: glyphs, stop)
    else
      let (glyphs, stop) := ofChars (m.next c.utf8Size) cs
      (⟨c, m⟩ :: glyphs, stop)

/-- Mark a text, if it has no other characters than it may contain. -/
def ofText? (text : String) : Option (List Glyph × Mark) :=
  if text.toList.all isAllowed then some (ofChars .start text.toList) else none

/-- Whether a blank, a line break or the end comes next. -/
def atBlank : List Glyph → Bool
  | [] => true
  | g :: _ => isBlankOrBreak g.char

def startsWith (c : Char) : List Glyph → Bool
  | [] => false
  | g :: _ => g.char == c

/-- Whether three equal characters, and then a blank, stand at the start of a line. -/
def isIndicatorLine (c : Char) : List Glyph → Bool
  | g :: h :: i :: rest =>
    g.mark.column == 0 && g.char == c && h.char == c && i.char == c && atBlank rest
  | _ => false

def atDocumentIndicator (glyphs : List Glyph) : Bool :=
  isIndicatorLine '-' glyphs || isIndicatorLine '.' glyphs

/-- The place of the next character, where `stop` is the place of the end. -/
def markAt (stop : Mark) : List Glyph → Mark
  | [] => stop
  | g :: _ => g.mark

end Glyph

end Reshape.Yaml
