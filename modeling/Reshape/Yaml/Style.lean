import Reshape.Yaml.Scalar

/-! # Styles of scalars

How a scalar is written. A text is plain where that reads back as the same text,
literal where it has lines, and otherwise quoted. What the characters of a text
do not allow is replaced by double quotes, which hold every text.
-/

namespace Reshape.Yaml

def isRawBreak (c : Char) : Bool := isBreak c || c == '\r' || c == nextLine

def isPrintable (c : Char) : Bool :=
  let n := c.toNat
  c == '\n' || (0x20 ≤ n && n ≤ 0x7E) ||
    (0xA0 ≤ n && n != 0xFEFF && n != 0xFFFE && n != 0xFFFF)

namespace ScalarStyle

def isSpace (c : Char) : Bool := c == ' '

/-- Whether some character of one kind stands directly before one of another. -/
def hasAdjacent (first second : Char → Bool) (cs : List Char) : Bool :=
  (cs.zip cs.tail).any fun (a, b) => first a && second b

def endsWord : List Char → Bool
  | [] => true
  | c :: _ => isBlank c || isRawBreak c

/-- Whether the beginning of a text has a meaning of its own. -/
def beginsAsIndicator : List Char → Bool
  | [] => false
  | '-' :: '-' :: '-' :: _ | '.' :: '.' :: '.' :: _ => true
  | c :: rest =>
    "#,[]\x7b\x7d&*!|>'\"%@`".toList.contains c || ("?:-".toList.contains c && endsWord rest)

/-- Whether a text behind a character holds the end of a key or the start of a comment. -/
def holdsIndicator (before : Char) : List Char → Bool
  | [] => false
  | c :: rest =>
    (c == ':' && endsWord rest) || (c == '#' && endsWord [before]) || holdsIndicator c rest

def hasIndicator (cs : List Char) : Bool :=
  beginsAsIndicator cs ||
    match cs with
    | [] => false
    | c :: rest => holdsIndicator c rest

def needsEscapes (cs : List Char) : Bool :=
  !cs.all isPrintable || hasAdjacent isSpace isRawBreak cs

def hasEdge (p : Char → Bool) (cs : List Char) : Bool := cs.head?.any p || cs.getLast?.any p

def allowsPlain (cs : List Char) : Bool :=
  !needsEscapes cs && !cs.any isRawBreak && !hasEdge isSpace cs && !hasIndicator cs

def allowsSingleQuoted (cs : List Char) : Bool :=
  !needsEscapes cs && !hasAdjacent isRawBreak isSpace cs

def allowsLiteral (cs : List Char) : Bool := !needsEscapes cs && !cs.getLast?.any isSpace

/-- Whether a plain text would be read as something else. -/
def isAmbiguous (s : String) : Bool :=
  Scalar.ofPlain s != .string s || Scalar.isZeroPadded s.toList

/-- The style in which a text is written. -/
def ofText (s : String) : ScalarStyle :=
  let cs := s.toList
  if cs.contains '\n' then if allowsLiteral cs then literal else doubleQuoted
  else if !isAmbiguous s && allowsPlain cs then plain
  else if allowsSingleQuoted cs then singleQuoted
  else doubleQuoted

end ScalarStyle

namespace Scalar

def hexDigits (width n : Nat) : List Char :=
  let digits := (Nat.toDigits 16 n).map Char.toUpper
  List.replicate (width - digits.length) '0' ++ digits

def escapeLetters : List (Nat × Char) := [
  (0x0, '0'), (0x7, 'a'), (0x8, 'b'), (0x9, 't'), (0xA, 'n'), (0xB, 'v'), (0xC, 'f'), (0xD, 'r'),
  (0x1B, 'e'), (0x22, '"'), (0x5C, '\\'), (0x85, 'N'), (0x2028, 'L'), (0x2029, 'P')]

def escape (c : Char) : List Char :=
  let n := c.toNat
  match escapeLetters.lookup n with
  | some letter => ['\\', letter]
  | none =>
    if isPrintable c then [c]
    else if n ≤ 0xFF then '\\' :: 'x' :: hexDigits 2 n
    else if n ≤ 0xFFFF then '\\' :: 'u' :: hexDigits 4 n
    else '\\' :: 'U' :: hexDigits 8 n

/-- Characters of which those at the start of a line, except for breaks, are indented. -/
def indentLines (indent : Nat) (put : Char → List Char) (atStart : Bool) :
    List Char → List Char
  | [] => []
  | c :: cs =>
    if isRawBreak c then c :: indentLines indent put true cs
    else
      (if atStart then List.replicate indent ' ' else []) ++ put c ++
        indentLines indent put false cs

def putSingleQuoted (c : Char) : List Char := if c == '\'' then ['\'', '\''] else [c]

def singleQuoted (indent : Nat) (cs : List Char) : List Char :=
  let closing := if cs.getLast?.any isRawBreak then List.replicate indent ' ' else []
  '\'' :: indentLines indent putSingleQuoted false cs ++ closing ++ ['\'']

/-- How many line breaks at the end of a literal text are kept. -/
def chomping (cs : List Char) : List Char :=
  match cs.reverse with
  | [] => ['-']
  | c :: before =>
    if !isRawBreak c then ['-']
    else
      match before with
      | [] => ['+']
      | d :: _ => if isRawBreak d then ['+'] else []

/-- The lines of a text, indented below a header. -/
def literal (indent : Nat) (cs : List Char) : List Char :=
  let hint := if cs.head?.any fun c => ScalarStyle.isSpace c || isRawBreak c then ['2'] else []
  '|' :: hint ++ chomping cs ++ '\n' :: indentLines indent (fun c => [c]) true cs

def ofString (indent : Nat) (s : String) : List Char :=
  let cs := s.toList
  match ScalarStyle.ofText s with
  | .plain => cs
  | .singleQuoted => singleQuoted indent cs
  | .literal => literal indent cs
  | _ => '"' :: cs.flatMap escape ++ ['"']

def layout : Layout :=
  { Number.layout with exponentPlus := "", nan := ".nan", infinity := ".inf" }

end Scalar

end Reshape.Yaml
