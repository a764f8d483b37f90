import Reshape.Yaml.Token.Plain

/-! # Block scalars

Literal and folded scalars: a header that says how the end is chomped and how
deep the text is indented, and then lines of that indentation.
-/

namespace Reshape.Yaml

/-- What happens to the line breaks at the end of a block scalar. -/
inductive Chomping where
  | strip
  | clip
  | keep
deriving DecidableEq

def chomping? (c : Char) : Option Chomping :=
  if c == '+' then some .keep else if c == '-' then some .strip else none

structure BlockHeader where
  chomping : Chomping
  /-- The depth of the text below the block around it, if it is given. -/
  increment : Option Nat

def increment? (c : Char) : Option Nat :=
  if '1' ≤ c ∧ c ≤ '9' then some (c.toNat - '0'.toNat) else none

/-- A header gives the chomping and the depth in either order. -/
def readHeader? : List Glyph → Option (BlockHeader × List Glyph)
  | [] => some (⟨.clip, none⟩, [])
  | g :: rest =>
    match chomping? g.char with
    | some chomping =>
      match rest with
      | h :: more =>
        if h.char == '0' then none
        else
          match increment? h.char with
          | some n => some (⟨chomping, some n⟩, more)
          | none => some (⟨chomping, none⟩, rest)
      | [] => some (⟨chomping, none⟩, [])
    | none =>
      if g.char == '0' then none
      else
        match increment? g.char with
        | none => some (⟨.clip, none⟩, g :: rest)
        | some n =>
          match rest with
          | h :: more =>
            match chomping? h.char with
            | some chomping => some (⟨chomping, some n⟩, more)
            | none => some (⟨.clip, some n⟩, rest)
          | [] => some (⟨.clip, some n⟩, [])

def endLine? (glyphs : List Glyph) : Option (List Glyph) :=
  let afterBlanks := glyphs.dropWhile fun g => isBlank g.char
  let afterComment :=
    if Glyph.startsWith '#' afterBlanks then afterBlanks.dropWhile fun g => !isBreak g.char
    else afterBlanks
  match afterComment with
  | [] => some []
  | g :: rest => if isBreak g.char then some rest else none

/--
Read the line breaks before the first text, while the indentation is unknown.
Gives them, latest first, and the greatest column met.
-/
def leadingBreaks? (breaks : List Char) (deepest : Nat) :
    List Glyph → Option (List Char × Nat × List Glyph)
  | [] => some (breaks, deepest, [])
  | g :: rest =>
    if g.char == ' ' then leadingBreaks? breaks deepest rest
    else
      let deepest := max deepest g.mark.column
      if g.char == '\t' then none
      else if isBreak g.char then leadingBreaks? (g.char :: breaks) deepest rest
      else some (breaks, deepest, g :: rest)

/-- The lines of a block scalar that have been read, all texts latest character first. -/
structure BlockText where
  text : List Char
  lineBreak : List Char
  breaks : List Char
  afterBlank : Bool

/-- Begin a line of text. Breaks between lines that do not begin with a blank are folded. -/
def BlockText.beginLine (folding : Bool) (c : Char) (b : BlockText) : BlockText :=
  let joined :=
    if folding && b.lineBreak == ['\n'] && !b.afterBlank && !isBlank c then
      if b.breaks.isEmpty then ' ' :: b.text else b.text
    else b.lineBreak ++ b.text
  ⟨c :: b.breaks ++ joined, [], [], isBlank c⟩

/-- Read lines of a known indentation. -/
def readLines? (folding : Bool) (indent : Nat) (inLine : Bool) (b : BlockText) :
    List Glyph → Option (BlockText × List Glyph)
  | [] => some (b, [])
  | g :: rest =>
    let c := g.char
    if inLine then
      if isBreak c then readLines? folding indent false { b with lineBreak := [c] } rest
      else readLines? folding indent true { b with text := c :: b.text } rest
    else if g.mark.column < indent && c == ' ' then readLines? folding indent false b rest
    else if g.mark.column < indent && c == '\t' then none
    else if isBreak c then
      readLines? folding indent false { b with breaks := c :: b.breaks } rest
    else if g.mark.column == indent then
      readLines? folding indent true (b.beginLine folding c) rest
    else some (b, g :: rest)

def BlockText.chomp (chomping : Chomping) (b : BlockText) : List Char :=
  match chomping with
  | .strip => b.text
  | .clip => b.lineBreak ++ b.text
  | .keep => b.breaks ++ b.lineBreak ++ b.text

/-- Read a block scalar after its indicator, below a block of some indentation. -/
def readBlock? (folding : Bool) (parent : Int) (glyphs : List Glyph) :
    Option (List Char × List Glyph) := do
  let (header, afterHeader) ← readHeader? glyphs
  let body ← endLine? afterHeader
  let (indent, breaks, body) ← match header.increment with
    | some n => pure (((max parent 0) + n).toNat, [], body)
    | none => do
      let (breaks, deepest, body) ← leadingBreaks? [] 0 body
      pure (max (max deepest (parent + 1).toNat) 1, breaks, body)
  let (text, rest) ← readLines? folding indent false ⟨[], [], breaks, false⟩ body
  return (text.chomp header.chomping, rest)

end Reshape.Yaml
