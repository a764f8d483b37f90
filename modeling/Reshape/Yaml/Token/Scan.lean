import Reshape.Yaml.Token.Property

/-! # From characters to tokens

Tokens are read from left to right. Where a node begins that could turn out to
be a key, its place among the tokens is remembered until a colon follows it, or
until it is too late: a simple key lies on one line and takes at most 1024
octets.
-/

namespace Reshape.Yaml

/-- A place among the tokens at which a key may have begun. -/
structure SimpleKey where
  number : Nat
  mark : Mark
  /-- Whether nothing but a key can stand at this place. -/
  required : Bool

/-- The state between two tokens. -/
structure Scanner where
  tokens : List Token
  count : Nat
  /-- The column of the innermost block collection, -1 outside of all. -/
  indent : Int
  indents : List Int
  keyAllowed : Bool
  key : Option SimpleKey
  /-- The possible keys on the levels around it; empty in block context. -/
  outerKeys : List (Option SimpleKey)

namespace Scanner

def start : Scanner := ⟨[], 0, -1, [], true, none, []⟩

def inFlow (s : Scanner) : Bool := !s.outerKeys.isEmpty

def push (s : Scanner) (kind : TokenKind) (start stop : Mark) : Scanner :=
  { s with tokens := ⟨kind, start, stop⟩ :: s.tokens, count := s.count + 1 }

def insert (s : Scanner) (number : Nat) (kind : TokenKind) (mark : Mark) : Scanner :=
  let later := s.count - number
  { s with
    tokens := s.tokens.take later ++ ⟨kind, mark, mark⟩ :: s.tokens.drop later
    count := s.count + 1 }

/-- Skip blanks, comments and line breaks, and byte-order marks in front of lines. A new line in
block context may begin a key. -/
def skipSpace (flow keyAllowed comment : Bool) : List Glyph → Bool × List Glyph
  | [] => (keyAllowed, [])
  | g :: rest =>
    let c := g.char
    if isBreak c then skipSpace flow (keyAllowed || !flow) false rest
    else if comment then skipSpace flow keyAllowed true rest
    else if c == ' ' || (c == '\t' && (flow || !keyAllowed)) ||
        (c == byteOrderMark && g.mark.column == 0) then
      skipSpace flow keyAllowed false rest
    else if c == '#' then skipSpace flow keyAllowed true rest
    else (keyAllowed, g :: rest)

def dropKey? : Option SimpleKey → Option (Option SimpleKey)
  | some key => if key.required then none else some none
  | none => some none

def SimpleKey.isLate (key : SimpleKey) (m : Mark) : Bool :=
  key.mark.line < m.line || key.mark.index + 1024 < m.index

def dropLate? (m : Mark) (key : Option SimpleKey) : Option (Option SimpleKey) :=
  match key with
  | some k => if SimpleKey.isLate k m then dropKey? key else some key
  | none => some none

def dropLateKeys? (s : Scanner) (m : Mark) : Option Scanner := do
  let key ← dropLate? m s.key
  let outerKeys ← s.outerKeys.mapM (dropLate? m)
  return { s with key, outerKeys }

def removeKey? (s : Scanner) : Option Scanner :=
  (dropKey? s.key).map fun key => { s with key }

/-- Remember that a key may begin at a place. -/
def saveKey? (s : Scanner) (m : Mark) : Option Scanner :=
  if s.keyAllowed then
    (dropKey? s.key).map fun _ =>
      { s with key := some ⟨s.count, m, !s.inFlow && s.indent == m.column⟩ }
  else some s

/-- Open a block collection at a column that is deeper than those around it. -/
def openBlock (s : Scanner) (number : Nat) (kind : TokenKind) (m : Mark) : Scanner :=
  if !s.inFlow && s.indent < m.column then
    { s.insert number kind m with indent := m.column, indents := s.indent :: s.indents }
  else s

/-- Close the block collections that are deeper than a column. -/
def closeBlocks (s : Scanner) (column : Int) (m : Mark) : Scanner :=
  if s.inFlow then s else go s.indents s
where
  go : List Int → Scanner → Scanner
    | [], s => if column < s.indent then (s.push .blockEnd m m) else s
    | outer :: indents, s =>
      if column < s.indent then
        go indents { s.push .blockEnd m m with indent := outer, indents }
      else s

def pushChar (s : Scanner) (kind : TokenKind) (m : Mark) : Scanner := s.push kind m (m.next 1)

def startFlow? (s : Scanner) (kind : TokenKind) (m : Mark) : Option Scanner :=
  (s.saveKey? m).map fun s =>
    { s with key := none, outerKeys := s.key :: s.outerKeys, keyAllowed := true }.pushChar kind m

def endFlow? (s : Scanner) (kind : TokenKind) (m : Mark) : Option Scanner :=
  s.removeKey?.map fun s =>
    let s := match s.outerKeys with
      | key :: outerKeys => { s with key, outerKeys }
      | [] => s
    { s with keyAllowed := false }.pushChar kind m

def flowEntry? (s : Scanner) (m : Mark) : Option Scanner :=
  s.removeKey?.map fun s => { s with keyAllowed := true }.pushChar .flowEntry m

def blockEntry? (s : Scanner) (m : Mark) : Option Scanner :=
  if !s.inFlow && !s.keyAllowed then none
  else
    (s.openBlock s.count .blockSequenceStart m).removeKey?.map fun s =>
      { s with keyAllowed := true }.pushChar .blockEntry m

def explicitKey? (s : Scanner) (m : Mark) : Option Scanner :=
  if !s.inFlow && !s.keyAllowed then none
  else
    (s.openBlock s.count .blockMappingStart m).removeKey?.map fun s =>
      { s with keyAllowed := !s.inFlow }.pushChar .key m

/-- A colon completes the possible key, or stands for the value of an explicit one. -/
def value? (s : Scanner) (m : Mark) : Option Scanner :=
  match s.key with
  | some key =>
    let s := (s.insert key.number .key key.mark).openBlock key.number .blockMappingStart key.mark
    some ({ s with key := none, keyAllowed := false }.pushChar .value m)
  | none =>
    if !s.inFlow && !s.keyAllowed then none
    else
      let s := s.openBlock s.count .blockMappingStart m
      some ({ s with keyAllowed := !s.inFlow }.pushChar .value m)

/-- A line that separates documents closes everything. -/
def separator? (s : Scanner) (kind : TokenKind) (m : Mark) : Option Scanner :=
  (s.closeBlocks (-1) m).removeKey?.map fun s =>
    { s with keyAllowed := false }.push kind m (((m.next 1).next 1).next 1)

def streamEnd? (s : Scanner) (stop : Mark) : Option Scanner :=
  let m := if stop.column = 0 then stop else ⟨stop.index, stop.line + 1, 0⟩
  (s.closeBlocks (-1) m).removeKey?.map fun s => s.push .streamEnd m m

def node? (s : Scanner) (kind : TokenKind) (m stop : Mark) : Option Scanner :=
  (s.saveKey? m).map fun s => { s with keyAllowed := false }.push kind m stop

/-- Whether a plain scalar can begin with a character, given what follows it. -/
def startsPlain (flow : Bool) (c : Char) (rest : List Glyph) : Bool :=
  !(isBlank c || "-?:,[]\x7b\x7d#&*!|>'\"%@`".toList.contains c) ||
    (c == '-' && !rest.head?.any fun g => isBlank g.char) ||
    (!flow && (c == '?' || c == ':') && !Glyph.atBlank rest)

def next? (s : Scanner) (stop : Mark) (g : Glyph) (rest : List Glyph) :
    Option (Scanner × List Glyph) := do
  let m := g.mark
  let c := g.char
  let flow := s.inFlow
  if m.column == 0 && c == '%' then
    let s ← (s.closeBlocks (-1) m).removeKey?
    let (kind, afterValue, rest) ← readDirective? rest
    return ({ s with keyAllowed := false }.push kind m (Glyph.markAt stop afterValue), rest)
  else if Glyph.isIndicatorLine '-' (g :: rest) then
    return (← s.separator? .documentStart m, rest.drop 2)
  else if Glyph.isIndicatorLine '.' (g :: rest) then
    return (← s.separator? .documentEnd m, rest.drop 2)
  else if c == '[' then return (← s.startFlow? .flowSequenceStart m, rest)
  else if c == '\x7b' then return (← s.startFlow? .flowMappingStart m, rest)
  else if c == ']' then return (← s.endFlow? .flowSequenceEnd m, rest)
  else if c == '\x7d' then return (← s.endFlow? .flowMappingEnd m, rest)
  else if c == ',' then return (← s.flowEntry? m, rest)
  else if c == '-' && Glyph.atBlank rest then return (← s.blockEntry? m, rest)
  else if c == '?' && (flow || Glyph.atBlank rest) then return (← s.explicitKey? m, rest)
  else if c == ':' && (flow || Glyph.atBlank rest) then return (← s.value? m, rest)
  else if c == '*' then
    let (name, rest) ← readAnchor? rest
    return (← s.node? (.reference name) m (Glyph.markAt stop rest), rest)
  else if c == '&' then
    let (name, rest) ← readAnchor? rest
    return (← s.node? (.anchor name) m (Glyph.markAt stop rest), rest)
  else if c == '!' then
    let (tag, rest) ← readTag? flow rest
    return (← s.node? (.tag tag) m (Glyph.markAt stop rest), rest)
  else if !flow && (c == '|' || c == '>') then
    let s ← s.removeKey?
    let (text, rest) ← readBlock? (c == '>') s.indent rest
    let style := if c == '>' then ScalarStyle.folded else .literal
    let kind := TokenKind.scalar (.ofList text.reverse) style
    return ({ s with keyAllowed := true }.push kind m (Glyph.markAt stop rest), rest)
  else if c == '\'' || c == '"' then
    let scalar ← readQuoted? (c == '\'') .none [] .empty rest
    let style := if c == '"' then ScalarStyle.doubleQuoted else .singleQuoted
    let kind := TokenKind.scalar (.ofList scalar.text.reverse) style
    return (← s.node? kind m (Glyph.markAt stop scalar.rest), scalar.rest)
  else if startsPlain flow c rest then
    let scalar ← readPlain? flow (s.indent + 1) [] .empty (g :: rest)
    let s ← s.node? (.scalar (.ofList scalar.text.reverse) .plain) m (Glyph.markAt stop scalar.rest)
    return ({ s with keyAllowed := scalar.gap.hasBreak }, scalar.rest)
  else none

/-- Go on to the next token, and read it. -/
def step? (s : Scanner) (stop : Mark) (glyphs : List Glyph) : Option (Scanner × List Glyph) := do
  let (keyAllowed, glyphs) := skipSpace s.inFlow s.keyAllowed false glyphs
  let m := Glyph.markAt stop glyphs
  let s ← { s with keyAllowed }.dropLateKeys? m
  let s := s.closeBlocks m.column m
  match glyphs with
  | [] => return (← s.streamEnd? stop, [])
  | g :: rest => s.next? stop g rest

/-- Whether a key may still be completed behind a place, or has to be. -/
def isPending (key : SimpleKey) (m : Mark) : Bool := key.required || !SimpleKey.isLate key m

/-- The tokens that are settled at a place: those before all places of keys that are not. -/
def settled (s : Scanner) (m : Mark) : List Token :=
  let pending := (s.key :: s.outerKeys).filterMap (Option.filter fun key => isPending key m)
  s.tokens.reverse.take (pending.foldl (fun count key => min count key.number) s.count)

def isEnded (s : Scanner) : Bool := s.tokens.head?.any fun t => t.kind == .streamEnd

/-- Read all tokens, up to the end or to a fault. Each takes a character, so the fuel suffices if it
exceeds their count. -/
def run (stop : Mark) : Nat → Scanner → List Glyph → List Token
  | 0, _, _ => []
  | fuel + 1, s, glyphs =>
    match s.step? stop glyphs with
    | none => s.settled (Glyph.markAt stop glyphs)
    | some (t, rest) => if t.isEnded then t.tokens.reverse else run stop fuel t rest

end Scanner

/-- The tokens of a text. If it is not well formed, they are those that can be told without reading
on to its first fault, and so there is none for its end. -/
def Token.ofText (text : String) : List Token :=
  match Glyph.ofText? text with
  | some (glyphs, stop) => Scanner.start.run stop (glyphs.length + 1) glyphs
  | none => []

end Reshape.Yaml
