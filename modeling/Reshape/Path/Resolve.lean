import Reshape.Fault

/-! # Resolving paths

The first access of a path has to meet a container of its kind; a later one that
does not makes the value absent. A wildcard maps the rest of the path over the
elements of an array, so a result has one array level for each wildcard.
-/

namespace Reshape

/-- Why a source cannot be traversed. -/
inductive Obstacle where
  /-- The first access meets a value of another kind. -/
  | unreadable (access : Access) (found : Kind)
  | notIterable (found : Kind)
deriving DecidableEq

def Obstacle.message : Obstacle → String
  | unreadable (.argument n) found =>
    let selector := (Access.argument n).text
    s!"argument selector '{selector}' needs a tuple source, found {found.name}"
  | unreadable access found => s!"cannot read '{access.text}' of {found.name} value"
  | notIterable found => s!"cannot iterate over {found.name} value"

def Access.follow? (a : Access) (v : Value) : Option Value :=
  match a, v with
  | key name, .object members => members.lookup name
  | index n, .array items | argument n, .array items => items[n]?
  | _, _ => none

namespace Chunk

/-- The value that accesses find one after the other, if there is one. -/
def resolveTolerant (chunk : Chunk) (v : Value) : Option Value :=
  chunk.foldlM (fun current a => a.follow? current) v

/-- The value that accesses find, where the first has to meet a container of its kind. -/
def resolveStrict (chunk : Chunk) (v : Value) : Except Obstacle (Option Value) :=
  match chunk with
  | [] => .ok (some v)
  | a :: rest =>
    match a, v with
    | .key name, .object members => .ok ((members.lookup name).bind (resolveTolerant rest))
    | .index n, .array items | .argument n, .array items =>
      .ok (items[n]?.bind (resolveTolerant rest))
    | _, _ => .error (.unreadable a v.kind)

/--
The results of a function on the elements of a collection. An absent result is
null; a collection that is absent or null has no results.
-/
def overElements (collection : Option Value) (f : Value → Except Obstacle (Option Value)) :
    Except Obstacle (Option Value) :=
  match collection with
  | none | some .null => .ok none
  | some (.array items) =>
    (items.mapM fun item => (f item).map (Option.getD · .null)).map fun results =>
      some (.array results)
  | some other => .error (.notIterable other.kind)

/-- Follow a chunk, and those after it, from each element of a collection. -/
def iterate (chunk : Chunk) : List Chunk → Option Value → Except Obstacle (Option Value)
  | [], collection => overElements collection fun item => .ok (resolveTolerant chunk item)
  | next :: rest, collection =>
    overElements collection fun item => iterate next rest (resolveTolerant chunk item)

end Chunk

/-- The elements below a number of array levels, in order. A null level has none. -/
def Value.flatten : Nat → Value → List Value
  | depth + 1, .array items => items.flatMap (flatten depth)
  | _ + 1, .null => []
  | _, v => [v]

namespace Path

/-- The value at a path, or the obstacle on the way. -/
def locate (p : Path) (source : Value) : Except Obstacle (Option Value) :=
  match p.rest with
  | [] => Chunk.resolveStrict p.first source
  | chunk :: rest => (Chunk.resolveStrict p.first source).bind (Chunk.iterate chunk rest)

def unresolved (p : Path) (obstacle : Obstacle) : MappingFault :=
  .unresolved p.text obstacle.message

/-- The value at a path; absent is not a fault. -/
def resolve (p : Path) (source : Value) : Except MappingFault (Option Value) :=
  (p.locate source).mapError p.unresolved

/-- The value at a path, with the array levels of several wildcards merged into one. -/
def resolveFlat (p : Path) (source : Value) : Except MappingFault (Option Value) :=
  if p.wildcardCount < 2 then p.resolve source
  else (p.resolve source).map (Option.map fun v => .array (v.flatten p.wildcardCount))

/-- The value at a path, where every obstacle counts as absence. -/
def resolveLenient (p : Path) (source : Value) : Option Value :=
  match p.resolve source with
  | .ok found => found
  | .error _ => none

end Path

end Reshape
