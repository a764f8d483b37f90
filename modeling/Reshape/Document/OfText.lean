import Reshape.Document.Decode
import Reshape.Document.Fault
import Reshape.Document.Form
import Reshape.Yaml.Node.Parser
import Reshape.Yaml.Scalar

/-! # Reading documents

A text is read as YAML content, and the nodes of the content are decoded. Where a
text is expected, a scalar is taken as it is written; where the form of a field has
to be found out, scalars have their types. An empty value is an empty mapping. A
fault has the place of the innermost node whose decoding it ended. Nesting is
limited, and so is the following of aliases. A document is decoded as far as its
text can be read, so of several faults the first counts.
-/

namespace Reshape

open Yaml

/-- The anchored nodes of a document, and how often aliases may be followed. -/
structure Anchors where
  nodes : List (Nat × Node)
  limit : Nat

def ParseFault.ofTextFault : TextFault → ParseFault
  | .malformed => .malformed
  | .unknownAnchor mark => .unknownAnchor mark

abbrev NodeDecoder := ReaderT Anchors (StateT Nat (Except ParseFault))

namespace NodeDecoder

def fail (fault : DecodeFault) : NodeDecoder α := throw (.node (.plain fault))

/-- Faults inside have this place, unless they have one. -/
def placed (mark : Mark) (path : NodePath) (act : NodeDecoder α) : NodeDecoder α :=
  fun anchors count => (act anchors count).mapError (ParseFault.locate mark path)

/-- The node itself, or the one that an alias refers to. -/
def follow (n : Node) : NodeDecoder Node := do
  match n with
  | .reference _ number =>
    let anchors ← read
    let count ← modifyGet fun count => (count + 1, count + 1)
    if anchors.limit < count then fail .repetitionLimit
    match (anchors.nodes.filter fun a => a.1 = number).getLast? with
    | some (_, target) => return target
    | none => fail .repetitionLimit
  | _ => return n

/-- Decode a node, or the one that an alias refers to, if it is not broken. -/
def visit (path : NodePath) (n : Node) (act : Node → NodeDecoder α) : NodeDecoder α := do
  let n ← follow n
  match n.mark with
  | .ok mark => placed mark path (act n)
  | .error fault => throw (.ofTextFault fault)

def pass (n : Node) : NodeDecoder Unit :=
  match n.fault? with
  | some fault => throw (.ofTextFault fault)
  | none => pure ()

def mismatch (n : Node) (expected : String) : NodeDecoder α :=
  match n with
  | .scalar p text style =>
    match Scalar.ofText text style p.tag with
    | .ok s => fail (.invalidType s.unexpected expected)
    | .error fault => fail fault
  | .sequence _ _ => fail (.invalidType .sequence expected)
  | _ => fail (.invalidType .map expected)

def string (expected : String) (path : NodePath) (n : Node) : NodeDecoder String :=
  visit path n fun n =>
    match n with
    | .scalar _ text _ => pure text
    | _ => mismatch n expected

def isBooleanStyle (style : ScalarStyle) (tag : Option Tag) : Bool :=
  style == .plain || (style == .literal && tag == some (Tag.core "bool"))

def boolean (path : NodePath) (n : Node) : NodeDecoder Bool :=
  visit path n fun n =>
    match n with
    | .scalar p text style =>
      match if isBooleanStyle style p.tag then Scalar.bool? text else none with
      | some b => pure b
      | none => mismatch n "a boolean"
    | _ => mismatch n "a boolean"

/-- The depth of nesting below which collections are read. -/
def deeper (mark : Mark) (depth : Nat) (act : Nat → NodeDecoder α) : NodeDecoder α :=
  match depth with
  | 0 => throw (.node ⟨.recursionLimit, some mark, []⟩)
  | depth + 1 => act depth

def entries (expected : String) (path : NodePath) (depth : Nat) (n : Node)
    (act : Nat → List (Node × Node) → NodeDecoder α) : NodeDecoder α :=
  visit path n fun n =>
    match n with
    | .mapping p es => deeper p.mark depth fun depth => act depth es
    | .scalar _ "" .plain => act depth []
    | _ => mismatch n expected

def below (path : NodePath) (key : Node) : NodePath :=
  match key with
  | .scalar _ text _ => .key text :: path
  | _ => .unknown :: path

def isTagged (p : Properties) : Bool := p.tag.any fun tag => tag.localName?.isSome

/-- Decode a node with the types of its scalars. -/
def tree (path : NodePath) (n : Node) (depth : Nat) : NodeDecoder Tree :=
  visit path n fun n =>
    match n with
    | .scalar p text style =>
      if isTagged p then fail .taggedForm
      else
        match Scalar.ofText text style p.tag with
        | .error fault => fail fault
        | .ok s =>
          match s.toTree? with
          | some t => pure t
          | none => fail (.invalidType s.unexpected "any value")
    | .sequence p items =>
      if isTagged p then fail .taggedForm
      else
        match depth with
        | 0 => throw (.node ⟨.recursionLimit, some p.mark, []⟩)
        | depth + 1 =>
          .sequence <$> items.zipIdx.mapM fun (item, i) => tree (.index i :: path) item depth
    | .mapping p es =>
      if isTagged p then fail .taggedForm
      else
        match depth with
        | 0 => throw (.node ⟨.recursionLimit, some p.mark, []⟩)
        | depth + 1 =>
          .mapping <$> es.mapM fun (key, v) => do
            return (← tree path key depth, ← tree (below path key) v depth)
    | .reference _ _ | .broken _ => fail .repetitionLimit

def value (path : NodePath) (n : Node) (depth : Nat) : NodeDecoder Value :=
  let tagged : NodeDecoder Value := fail (.invalidType .enumeration "any valid JSON value")
  visit path n fun n =>
    match n with
    | .scalar p text style =>
      if isTagged p then tagged
      else
        match Scalar.ofText text style p.tag with
        | .error fault => fail fault
        | .ok s =>
          match s.toTree?.bind Tree.toValue? with
          | some v => pure v
          | none => fail .numberOutOfRange
    | .sequence p items =>
      if isTagged p then tagged
      else
        match depth with
        | 0 => throw (.node ⟨.recursionLimit, some p.mark, []⟩)
        | depth + 1 =>
          .array <$> items.zipIdx.mapM fun (item, i) => value (.index i :: path) item depth
    | .mapping p es =>
      if isTagged p then tagged
      else
        match depth with
        | 0 => throw (.node ⟨.recursionLimit, some p.mark, []⟩)
        | depth + 1 => do
          let members ← es.zipIdx.mapM fun ((key, v), i) => do
            let expected := if i = 0 then "a string key" else "a string"
            return (← string expected path key, ← value (below path key) v depth)
          return .object (Members.ofList members)
    | .reference _ _ | .broken _ => fail .repetitionLimit

def once (name : String) (found : Option α) (act : NodeDecoder α) : NodeDecoder (Option α) :=
  if found.isSome then fail (.duplicateField name) else some <$> act

/-- Read one more option; only one has a meaning. -/
def option (path : NodePath) (found : Option Bool) (entry : Node × Node) :
    NodeDecoder (Option Bool) := do
  let (key, v) := entry
  match ← string "field identifier" path key with
  | "use_unsafe" => once "use_unsafe" found (boolean (below path key) v)
  | _ => pass v; return found

def mode (path : NodePath) (depth : Nat) (n : Node) : NodeDecoder Mode :=
  entries "struct MapperOptions" path depth n fun _ es => do
    return Mode.ofBool ((← es.foldlM (option path) none).getD false)

def defaults (path : NodePath) (depth : Nat) (n : Node) : NodeDecoder Defaults :=
  entries "a map" path depth n fun depth es => do
    let members ← es.mapM fun (key, v) => do
      return (← string "a string" path key, ← value (below path key) v depth)
    return ⟨Members.ofList members⟩

def field (path : NodePath) (depth : Nat) (found : Entries FieldSpec) (entry : Node × Node) :
    NodeDecoder (Entries FieldSpec) := do
  let (key, v) := entry
  let name ← string "a string" path key
  match FieldSpec.ofTree? (← tree (below path key) v depth) with
  | none => fail (.noForm "FieldSpec")
  | some spec =>
    if found.keys.contains name then fail (.duplicateTarget name)
    else return found ++ [(name, spec)]

def fields (path : NodePath) (depth : Nat) (n : Node) : NodeDecoder (Entries FieldSpec) :=
  entries "a map of target field names to field specs" path depth n fun depth es =>
    es.foldlM (field path depth) []

structure Parts where
  name : Option String
  mode : Option Mode
  defaults : Option Defaults
  fields : Option (Entries FieldSpec)

def required (name : String) : Option α → NodeDecoder α
  | some v => pure v
  | none => fail (.missingField name)

def part (depth : Nat) (parts : Parts) (entry : Node × Node) : NodeDecoder Parts := do
  let (key, v) := entry
  let path := below [] key
  match ← string "field identifier" [] key with
  | "name" =>
    return { parts with name := ← once "name" parts.name (string "a string" path v) }
  | "options" => return { parts with mode := ← once "options" parts.mode (mode path depth v) }
  | "defaults" =>
    return { parts with defaults := ← once "defaults" parts.defaults (defaults path depth v) }
  | "fields" =>
    return { parts with fields := ← once "fields" parts.fields (fields path depth v) }
  | _ => pass v; return parts

/-- Parts that are left out have their defaults, except for the name and the fields. -/
def document (depth : Nat) (es : List (Node × Node)) : NodeDecoder Document := do
  let parts ← es.foldlM (part depth) ⟨none, none, none, none⟩
  let name ← required "name" parts.name
  let fields ← required "fields" parts.fields
  return ⟨name, parts.mode.getD .safe, parts.defaults.getD .empty, fields⟩

def maxDepth : Nat := 128

/-- Decode the root of a document. Nothing may follow the document. -/
def decodeRoot (decoder : Node → NodeDecoder α) (root : Node) (ending : Ending) :
    Except ParseFault α := do
  let anchors : Anchors := ⟨root.anchored, 100 * root.eventCount⟩
  let result ← ((decoder root).run anchors).run' 0
  match ending with
  | .whole => return result
  | .further => throw .severalDocuments
  | .broken fault => throw (.ofTextFault fault)

end NodeDecoder

namespace FieldSpec

def ofRoot (root : Node) : NodeDecoder FieldSpec := do
  match ofTree? (← NodeDecoder.tree [] root NodeDecoder.maxDepth) with
  | none => NodeDecoder.fail (.noForm "FieldSpec")
  | some spec => return spec

/-- Decode the content of a text as a field; an empty text has no form. -/
def ofContent : Content → Except ParseFault FieldSpec
  | .void stop =>
    ((NodeDecoder.placed stop [] (NodeDecoder.fail (.noForm "FieldSpec"))).run ⟨[], 0⟩).run' 0
  | .document root ending => NodeDecoder.decodeRoot ofRoot root ending

def ofText (text : String) : Except ParseFault FieldSpec := ofContent (Content.ofText text)

end FieldSpec

namespace Document

def ofRoot (root : Node) : NodeDecoder Document :=
  NodeDecoder.entries "struct MappingDocument" [] NodeDecoder.maxDepth root NodeDecoder.document

/-- Decode the content of a text; an empty text has no entries. -/
def ofContent : Content → Except ParseFault Document
  | .void stop =>
    ((NodeDecoder.placed stop [] (NodeDecoder.document 0 [])).run ⟨[], 0⟩).run' 0
  | .document root ending => NodeDecoder.decodeRoot ofRoot root ending

def ofText (text : String) : Except ParseFault Document := ofContent (Content.ofText text)

/-- The document in a file, whose content is given unless it does not exist. -/
def ofFile (path : String) (content? : Option String) : Except ParseFault Document :=
  match content? with
  | none => .error (.missingFile path)
  | some content => ofText content

end Document

end Reshape
