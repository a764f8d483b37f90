import Reshape.Mapper.Store

/-! # Compiling mappers

A compilation walks a configuration in order. It reads paths, copies defaults
into the fields that may need them, and compiles embedded mappers that are not
compiled yet. The session knows the mappers being compiled and the target keys
that lead to the current binding, so a mapper that embeds itself is reported
with its place.
-/

namespace Reshape

/-- The state of a compilation. -/
structure Session where
  store : Store
  /-- The mappers being compiled, innermost first. -/
  mappers : List MapperId
  /-- The target keys that lead to the current binding, innermost first. -/
  keys : List String

/-- A computation in a session, which keeps its state also when it fails. -/
abbrev Compiler := ExceptT Error (StateM Session)

namespace Compiler

def currentField (s : Session) : String := ".".intercalate s.keys.reverse

def readPath (text : String) : Compiler Path := ExceptT.mk (pure (Path.read text))

def withKey (key : String) (act : Compiler α) : Compiler α :=
  ExceptT.mk fun s =>
    let (result, s) := act.run { s with keys := key :: s.keys }
    (result, { s with keys := s.keys.tail })

/-- Work inside a mapper, unless that is going on already. -/
def withMapper (id : MapperId) (act : Compiler α) : Compiler α :=
  ExceptT.mk fun s =>
    if id ∈ s.mappers then (.error (.circularMapper (currentField s)), s)
    else
      let (result, s) := act.run { s with mappers := id :: s.mappers }
      (result, { s with mappers := s.mappers.tail })

end Compiler

open Compiler

mutual

/-- The plan of a binding, where `embed` compiles other mappers. -/
def Binding.compile (embed : MapperId → Compiler Procedure) (mode : Mode) (defaults : Defaults)
    (key : String) : Binding → Compiler Plan
  | .path text shape => do return .path (← readPath text) shape
  | .transform f => return .transform f
  | .mapper id source => do
    let at? ← match source with
      | none => pure none
      | some text => some <$> readPath text
    return .mapper (← embed id) at?
  | .tree bindings => do
    return .tree (.mk mode (← compileBindings embed mode (defaults.subtree key) bindings))

/-- The fields of bindings in order. An inline tree always has a value, so it takes no default. -/
def compileBindings (embed : MapperId → Compiler Procedure) (mode : Mode) (defaults : Defaults) :
    List (String × Binding) → Compiler (List Field)
  | [] => return []
  | (key, binding) :: rest => do
    let plan ← withKey key (binding.compile embed mode defaults key)
    let default := match plan with
      | .tree _ => none
      | _ => defaults.get? key
    return .mk key plan default :: (← compileBindings embed mode defaults rest)

end

def Configuration.compile (embed : MapperId → Compiler Procedure) (mode : Mode)
    (defaults : Defaults) (config : Configuration) : Compiler Procedure :=
  Procedure.mk mode <$> compileBindings embed mode defaults config

/--
The procedure of a mapper, compiled unless it is already. As no mapper is
entered twice, the fuel suffices if it is the number of mappers not entered.
-/
def compileMapper (fuel : Nat) (id : MapperId) : Compiler Procedure := do
  let m := (← get).store.mapper id
  match m.compiled with
  | some p => return p
  | none =>
    withMapper id do
      match fuel with
      | 0 => throw (.circularMapper (currentField (← get)))
      | fuel + 1 =>
        let p ← m.config.compile (compileMapper fuel) m.mode m.defaults
        modify fun s => { s with store := s.store.publish id p }
        return p

namespace Store

def runCompiler (s : Store) (act : Compiler α) : Except Error α × Store :=
  let (result, session) := act.run ⟨s, [], []⟩
  (result, session.store)

/-- The procedure of a mapper, compiled unless it is already. -/
def compile (s : Store) (id : MapperId) : Except Error Procedure × Store :=
  s.runCompiler (compileMapper s.size id)

/-- The procedure of a configuration that is not part of a mapper. -/
def compileConfiguration (s : Store) (config : Configuration) (defaults : Defaults) (mode : Mode) :
    Except Error Procedure × Store :=
  s.runCompiler (config.compile (compileMapper s.size) mode defaults)

/-- Run a mapper on a source, compiling it on first use. -/
def execute (s : Store) (id : MapperId) (source : Value) : Except Error Outcome × Store :=
  let (compiled, s) := s.compile id
  (compiled.bind fun p => p.run source, s)

end Store

end Reshape
