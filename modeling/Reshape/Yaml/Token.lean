import Reshape.Yaml.Glyph

/-! # Tokens

The tokens of a YAML text. Indentation and the keys of mappings have tokens of
their own. The tag of a node is a sequence of octets, which need not be those of a
text. A tag of the core schema gives a scalar its type; a tag with an exclamation
mark in front belongs to the document itself.
-/

namespace Reshape.Yaml

/-- The octets of a tag. -/
structure Tag where
  octets : List UInt8
deriving DecidableEq

namespace Tag

/-- The tag that octets spell. A zero among them ends it. -/
def ofOctets (octets : List UInt8) : Tag := ⟨octets.takeWhile (· != 0)⟩

def ofText (s : String) : Tag := ofOctets s.toUTF8.toList

instance : Append Tag := ⟨fun t u => ⟨t.octets ++ u.octets⟩⟩

def isEmpty (t : Tag) : Bool := t.octets.isEmpty

/-- The tag of a node that is not to have the type of its contents. -/
def nonSpecific : Tag := ofText "!"

def core (name : String) : Tag := ofText ("tag:yaml.org,2002:" ++ name)

/-- The octets behind the exclamation mark of a tag of this document's own. -/
def localOctets? (t : Tag) : Option (List UInt8) :=
  match t.octets with
  | octet :: rest => if octet = '!'.toUInt8 then some rest else none
  | [] => none

def isLocal (t : Tag) : Bool := t.localOctets?.isSome

def localName? (t : Tag) : Option String :=
  t.localOctets?.bind fun octets => String.fromUTF8? ⟨octets.toArray⟩

end Tag

inductive ScalarStyle where
  | plain
  | singleQuoted
  | doubleQuoted
  | literal
  | folded
deriving DecidableEq

/-- A tag as it is written: a handle, which may be empty, and what follows it. -/
structure TagText where
  handle : String
  suffix : Tag
deriving DecidableEq

inductive TokenKind where
  | streamEnd
  | versionDirective (major minor : Nat)
  | tagDirective (handle : String) (replacement : Tag)
  | documentStart
  | documentEnd
  | blockSequenceStart
  | blockMappingStart
  | blockEnd
  | flowSequenceStart
  | flowSequenceEnd
  | flowMappingStart
  | flowMappingEnd
  | blockEntry
  | flowEntry
  | key
  | value
  | reference (name : String)
  | anchor (name : String)
  | tag (text : TagText)
  | scalar (text : String) (style : ScalarStyle)
deriving DecidableEq

structure Token where
  kind : TokenKind
  start : Mark
  stop : Mark
deriving DecidableEq

end Reshape.Yaml
