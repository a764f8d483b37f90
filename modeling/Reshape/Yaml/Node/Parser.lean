import Reshape.Yaml.Node
import Reshape.Yaml.Token.Scan

/-! # From tokens to nodes

A recursive-descent reading of the tokens. Values that are left out become empty
scalars. Where the tokens make no sense, or there are no more of them, the tree
has a broken node, and nothing is read after it. A text should hold one document
at most.
-/

namespace Reshape.Yaml

/-- What is left to read, and what is known about the document. -/
structure Reading where
  tokens : List Token
  handles : List (String × Tag)
  anchors : List (String × Nat)

abbrev NodeReader := StateT Reading (Except TextFault)

namespace NodeReader

def fail : NodeReader α := throw .malformed

/-- A result in spite of a fault, after which there is nothing to read. -/
def recover (broken : TextFault → α) (act : NodeReader α) : NodeReader α := fun r =>
  match act r with
  | .ok result => .ok result
  | .error fault => .ok (broken fault, { r with tokens := [] })

def orBroken (act : NodeReader Node) : NodeReader Node := recover Node.broken act

def brokenItems (act : NodeReader (List Node)) : NodeReader (List Node) :=
  recover (fun fault => [.broken fault]) act

def brokenEntries (act : NodeReader (List (Node × Node))) : NodeReader (List (Node × Node)) :=
  recover (fun fault => [(.broken fault, .broken fault)]) act

def peek : NodeReader Token := do
  match (← get).tokens with
  | t :: _ => return t
  | [] => fail

def skip : NodeReader Unit := modify fun r => { r with tokens := r.tokens.drop 1 }

def declare (name : String) : NodeReader Nat :=
  modifyGet fun r =>
    let number := r.anchors.length
    (number, { r with anchors := (name, number) :: r.anchors.filter fun a => a.1 != name })

def resolveTag (t : TagText) : NodeReader Tag := do
  if t.handle.isEmpty then return t.suffix
  else
    match (← get).handles.lookup t.handle with
    | some replacement => return replacement ++ t.suffix
    | none => fail

/-- Read the anchor and the tag of a node, in either order. -/
def properties : NodeReader (Mark × Option String × Option TagText) := do
  let t ← peek
  match t.kind with
  | .anchor name =>
    skip
    match (← peek).kind with
    | .tag tag => skip; return (t.start, some name, some tag)
    | _ => return (t.start, some name, none)
  | .tag tag =>
    skip
    match (← peek).kind with
    | .anchor name => skip; return (t.start, some name, some tag)
    | _ => return (t.start, none, some tag)
  | _ => return (t.start, none, none)

/-- A block collection goes on where its entries end. -/
def endsEntry : TokenKind → Bool
  | .blockEntry | .key | .value | .blockEnd => true
  | _ => false

def endsMappingPart : TokenKind → Bool
  | .key | .value | .blockEnd => true
  | _ => false

/-- Between two entries of a flow collection, and at most once before its end, stands a comma. -/
def separator (first : Bool) (last : TokenKind) : NodeReader Unit := do
  let t ← peek
  if t.kind != last && !first then
    if t.kind == .flowEntry then skip else fail

def empty (p : Properties) : NodeReader Node :=
  if p.anchor.isSome || p.tag.isSome then return .scalar p "" .plain else fail

mutual

/-- Read a node; in some places a block sequence need not be indented. -/
def node (block indentless : Bool) : Nat → NodeReader Node
  | 0 => fail
  | fuel + 1 => do
    let t ← peek
    match t.kind with
    | .reference name =>
      skip
      match (← get).anchors.lookup name with
      | some number => return .reference t.start number
      | none => throw (.unknownAnchor t.start)
    | _ =>
      let (mark, anchorName, tagText) ← properties
      let tag ← match tagText with
        | some text => some <$> resolveTag text
        | none => pure none
      let anchor ← match anchorName with
        | some name => some <$> declare name
        | none => pure none
      let p : Properties := ⟨mark, anchor, tag⟩
      match (← peek).kind with
      | .blockEntry =>
        if indentless then return .sequence p (← indentlessItems fuel)
        else empty p
      | .scalar text style => skip; return .scalar p text style
      | .flowSequenceStart => skip; return .sequence p (← flowItems true fuel)
      | .flowMappingStart => skip; return .mapping p (← flowEntries true fuel)
      | .blockSequenceStart =>
        if block then skip; return .sequence p (← blockItems fuel) else empty p
      | .blockMappingStart =>
        if block then skip; return .mapping p (← blockEntries fuel) else empty p
      | _ => empty p

def blockItems : Nat → NodeReader (List Node)
  | 0 => brokenItems fail
  | fuel + 1 => brokenItems do
    let t ← peek
    match t.kind with
    | .blockEntry =>
      skip
      let item ← orBroken do
        match (← peek).kind with
        | .blockEntry | .blockEnd => return Node.missing t.stop
        | _ => node true false fuel
      return item :: (← blockItems fuel)
    | .blockEnd => skip; return []
    | _ => fail

def indentlessItems : Nat → NodeReader (List Node)
  | 0 => brokenItems fail
  | fuel + 1 => brokenItems do
    let t ← peek
    match t.kind with
    | .blockEntry =>
      skip
      let item ← orBroken do
        if endsEntry (← peek).kind then return Node.missing t.stop else node true false fuel
      return item :: (← indentlessItems fuel)
    | _ => return []

def blockEntries : Nat → NodeReader (List (Node × Node))
  | 0 => brokenEntries fail
  | fuel + 1 => brokenEntries do
    let t ← peek
    match t.kind with
    | .key =>
      skip
      let key ← orBroken do
        if endsMappingPart (← peek).kind then return Node.missing t.stop else node true true fuel
      let value ← orBroken do
        let v ← peek
        match v.kind with
        | .value =>
          skip
          if endsMappingPart (← peek).kind then return Node.missing v.stop
          else node true true fuel
        | _ => return Node.missing v.start
      return (key, value) :: (← blockEntries fuel)
    | .blockEnd => skip; return []
    | _ => fail

/-- Read the rest of a flow sequence. An item may be a mapping of one entry. -/
def flowItems (first : Bool) : Nat → NodeReader (List Node)
  | 0 => brokenItems fail
  | fuel + 1 => brokenItems do
    separator first .flowSequenceEnd
    let t ← peek
    match t.kind with
    | .flowSequenceEnd => skip; return []
    | .key =>
      skip
      let entry ← flowPair fuel
      return .mapping ⟨t.start, none, none⟩ [entry] :: (← flowItems false fuel)
    | _ =>
      let item ← orBroken (node false false fuel)
      return item :: (← flowItems false fuel)

def flowPair : Nat → NodeReader (Node × Node)
  | 0 => fail
  | fuel + 1 => do
    let key ← orBroken do
      let k ← peek
      match k.kind with
      | .value | .flowEntry | .flowSequenceEnd => skip; return Node.missing k.stop
      | _ => node false false fuel
    let value ← orBroken do
      let v ← peek
      if v.kind == .value then
        skip
        let w ← peek
        match w.kind with
        | .flowEntry | .flowSequenceEnd => return Node.missing w.start
        | _ => node false false fuel
      else return Node.missing v.start
    return (key, value)

def flowEntries (first : Bool) : Nat → NodeReader (List (Node × Node))
  | 0 => brokenEntries fail
  | fuel + 1 => brokenEntries do
    separator first .flowMappingEnd
    let t ← peek
    match t.kind with
    | .flowMappingEnd => skip; return []
    | .key =>
      skip
      let key ← orBroken do
        let k ← peek
        match k.kind with
        | .value | .flowEntry | .flowMappingEnd => return Node.missing k.start
        | _ => node false false fuel
      let value ← orBroken do
        let v ← peek
        if v.kind == .value then
          skip
          let w ← peek
          match w.kind with
          | .flowEntry | .flowMappingEnd => return Node.missing w.start
          | _ => node false false fuel
        else return Node.missing v.start
      return (key, value) :: (← flowEntries false fuel)
    | _ =>
      let key ← orBroken (node false false fuel)
      let value ← orBroken do return Node.missing (← peek).start
      return (key, value) :: (← flowEntries false fuel)

end

def defaultHandles : List (String × Tag) := [("!", .ofText "!"), ("!!", .core "")]

/-- Read directives: a version at most once, and each handle at most once. -/
def directives (versioned : Bool) : Nat → NodeReader Unit
  | 0 => fail
  | fuel + 1 => do
    match (← peek).kind with
    | .versionDirective major minor =>
      if versioned || major != 1 || (minor != 1 && minor != 2) then fail
      skip
      directives true fuel
    | .tagDirective handle replacement =>
      if ((← get).handles.lookup handle).isSome then fail
      skip
      modify fun r => { r with handles := r.handles ++ [(handle, replacement)] }
      directives versioned fuel
    | _ => modify fun r => { r with handles := r.handles ++ defaultHandles }

def isOver : Nat → NodeReader Bool
  | 0 => fail
  | fuel + 1 => do
    match (← peek).kind with
    | .documentEnd => skip; isOver fuel
    | .streamEnd => return true
    | _ => return false

/-- Find out what follows a document. The token behind it can still break it. -/
def ending (fuel : Nat) : NodeReader Ending :=
  recover Ending.broken do
    if (← peek).kind == .documentEnd then skip
    return if ← recover (fun _ => false) (isOver fuel) then .whole else .further

def endsDocument : TokenKind → Bool
  | .versionDirective _ _ | .tagDirective _ _ | .documentStart | .documentEnd | .streamEnd => true
  | _ => false

/-- Read the root of a document that begins with a token. -/
def root (t : Token) (fuel : Nat) : NodeReader Node :=
  orBroken do
    match t.kind with
    | .versionDirective _ _ | .tagDirective _ _ | .documentStart =>
      directives false fuel
      if (← peek).kind != .documentStart then fail
      skip
      let t ← peek
      if endsDocument t.kind then return Node.missing t.start else node true false fuel
    | _ =>
      modify fun r => { r with handles := defaultHandles }
      node true false fuel

def content (fuel : Nat) : NodeReader Content := do
  let t ← peek
  if t.kind == .streamEnd then return .void t.start
  let root ← root t fuel
  return .document root (← ending fuel)

end NodeReader

def Content.ofText (text : String) : Content :=
  let tokens := Token.ofText text
  match (NodeReader.content (4 * tokens.length + 8)).run' ⟨tokens, [], []⟩ with
  | .ok content => content
  | .error fault => .document (.broken fault) (.broken fault)

end Reshape.Yaml
