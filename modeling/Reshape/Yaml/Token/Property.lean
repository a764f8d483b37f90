import Reshape.Yaml.Token
import Reshape.Yaml.Token.Block

/-! # Anchors, tags and directives

The names that a node can carry, and the lines before a document that say how
its tags are read.
-/

namespace Reshape.Yaml

def takeChars (p : Char → Bool) (glyphs : List Glyph) : List Char × List Glyph :=
  ((glyphs.takeWhile fun g => p g.char).map Glyph.char, glyphs.dropWhile fun g => p g.char)

def readAnchor? (glyphs : List Glyph) : Option (String × List Glyph) :=
  let (name, rest) := takeChars isWord glyphs
  let ends := Glyph.atBlank rest || rest.head?.any fun g => "?:,]\x7d%@`".toList.contains g.char
  if name.isEmpty || !ends then none else some (.ofList name, rest)

/-- The characters of a tag; brackets and commas may stand in verbatim ones only. -/
def isTagChar (verbatim : Bool) (c : Char) : Bool :=
  isWord c || ";/?:@&=+$.%!~*'()".toList.contains c || (verbatim && ",[]".toList.contains c)

def followers? (octet : Nat) : Option Nat :=
  if octet < 0x80 then some 0
  else if octet < 0xC0 then none
  else if octet < 0xE0 then some 1
  else if octet < 0xF0 then some 2
  else if octet < 0xF8 then some 3
  else none

/-- The octets of characters, some of them in hexadecimal digits, where so many have to follow the
last one. What the octets of a sequence stand for is left open. -/
def decodeOctets? (pending : Nat) : List Char → Option (List UInt8)
  | [] => if pending = 0 then some [] else none
  | '%' :: a :: b :: rest => do
    let octet := 16 * (← hexValue? a) + (← hexValue? b)
    let left ←
      if pending = 0 then followers? octet
      else if 0x80 ≤ octet ∧ octet < 0xC0 then some (pending - 1)
      else none
    return octet.toUInt8 :: (← decodeOctets? left rest)
  | c :: rest =>
    if pending = 0 ∧ c ≠ '%' then (decodeOctets? 0 rest).map (c.toUInt8 :: ·) else none

def readTagOctets? (verbatim : Bool) (glyphs : List Glyph) : Option (List UInt8 × List Glyph) :=
  let (cs, rest) := takeChars (isTagChar verbatim) glyphs
  (decodeOctets? 0 cs).map fun octets => (octets, rest)

def readTag? (flow : Bool) (glyphs : List Glyph) : Option (TagText × List Glyph) := do
  let (tag, rest) ←
    match glyphs with
    | g :: more =>
      if g.char == '<' then do
        let (octets, rest) ← readTagOctets? true more
        match rest with
        | h :: rest =>
          if h.char == '>' && !octets.isEmpty then pure (TagText.mk "" (.ofOctets octets), rest)
          else none
        | [] => none
      else readNamed (g :: more)
    | [] => readNamed []
  let ends := Glyph.atBlank rest || (flow && Glyph.startsWith ',' rest)
  if ends then some (tag, rest) else none
where
  readNamed (glyphs : List Glyph) : Option (TagText × List Glyph) := do
    let (word, afterWord) := takeChars isWord glyphs
    if Glyph.startsWith '!' afterWord then
      let (octets, rest) ← readTagOctets? false (afterWord.drop 1)
      if octets.isEmpty then none
      else some (⟨.ofList ('!' :: word ++ ['!']), .ofOctets octets⟩, rest)
    else
      let (octets, rest) ← readTagOctets? false glyphs
      let suffix := Tag.ofOctets octets
      some (if suffix.isEmpty then ⟨"", .nonSpecific⟩ else ⟨"!", suffix⟩, rest)

def readVersionNumber? (glyphs : List Glyph) : Option (Nat × List Glyph) :=
  let (digits, rest) := takeChars (fun c => '0' ≤ c && c ≤ '9') glyphs
  if digits.isEmpty || 9 < digits.length then none
  else some (digits.foldl (fun n c => 10 * n + (c.toNat - '0'.toNat)) 0, rest)

def skipBlanks (glyphs : List Glyph) : List Glyph := glyphs.dropWhile fun g => isBlank g.char

def readVersion? (glyphs : List Glyph) : Option (TokenKind × List Glyph) := do
  let (major, rest) ← readVersionNumber? (skipBlanks glyphs)
  if !Glyph.startsWith '.' rest then none
  let (minor, rest) ← readVersionNumber? (rest.drop 1)
  return (.versionDirective major minor, rest)

def readTagDirective? (glyphs : List Glyph) : Option (TokenKind × List Glyph) := do
  let glyphs := skipBlanks glyphs
  if !Glyph.startsWith '!' glyphs then none
  let (word, afterWord) := takeChars isWord (glyphs.drop 1)
  let closed := Glyph.startsWith '!' afterWord
  if !closed && !word.isEmpty then none
  let handle := '!' :: word ++ (if closed then ['!'] else [])
  let rest := if closed then afterWord.drop 1 else afterWord
  if !rest.head?.any fun g => isBlank g.char then none
  let (octets, rest) ← readTagOctets? true (skipBlanks rest)
  if octets.isEmpty || !Glyph.atBlank rest then none
  return (.tagDirective (.ofList handle) (.ofOctets octets), rest)

/-- Read a directive after its percent sign, up to the end of its line. -/
def readDirective? (glyphs : List Glyph) : Option (TokenKind × List Glyph × List Glyph) := do
  let (name, rest) := takeChars isWord glyphs
  if name.isEmpty || !Glyph.atBlank rest then none
  let (kind, rest) ←
    if name == "YAML".toList then readVersion? rest
    else if name == "TAG".toList then readTagDirective? rest
    else none
  return (kind, rest, ← endLine? rest)

end Reshape.Yaml
