import Reshape.Value

/-! # Source paths

A path is a run of accesses and wildcards. The wildcards cut it into chunks: the
first chunk selects a collection, and each later one is followed from every
element of the collection before it.
-/

namespace Reshape

/-- One access into a container. -/
inductive Access where
  | key (name : String)
  | index (n : Nat)
  /-- An element of a tuple of arguments. -/
  | argument (n : Nat)
deriving DecidableEq

/-- A step of a path as it is written. -/
inductive Segment where
  | access (a : Access)
  | wildcard
deriving DecidableEq

/-- The accesses between two wildcards. -/
abbrev Chunk := List Access

/-- A path with its text. -/
structure Path where
  text : String
  first : Chunk
  rest : List Chunk
deriving DecidableEq

def Access.text : Access → String
  | key name => name
  | index n => s!"[{n}]"
  | argument n => s!"${n}"

def Segment.text : Segment → String
  | access a => a.text
  | wildcard => "[]"

namespace Chunk

/-- Cut segments at the wildcards. -/
def split : List Segment → Chunk × List Chunk
  | [] => ([], [])
  | .access a :: segments =>
    let (first, rest) := split segments
    (a :: first, rest)
  | .wildcard :: segments =>
    let (first, rest) := split segments
    ([], first :: rest)

end Chunk

namespace Path

def chunks (p : Path) : List Chunk := p.first :: p.rest

def wildcardCount (p : Path) : Nat := p.rest.length

def hasWildcard (p : Path) : Bool := !p.rest.isEmpty

/-- The segments of a path, with a wildcard between consecutive chunks. -/
def segments (p : Path) : List Segment :=
  p.first.map .access ++ p.rest.flatMap fun chunk => .wildcard :: chunk.map .access

end Path

end Reshape
