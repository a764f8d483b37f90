import Reshape.Procedure

/-! # Mappers

A mapper joins a configuration, its defaults and a mode. It keeps the procedure
of its first successful compilation, and from then on refuses changes. Mappers
refer to each other by their identity in a store. One caller works on a store at a
time, so no configuration changes while it is compiled, and no access to a mapper
fails.
-/

namespace Reshape

structure Mapper where
  config : Configuration
  defaults : Defaults
  mode : Mode
  /-- The procedure of the first successful compilation. -/
  compiled : Option Procedure

namespace Mapper

def new (config : Configuration) (defaults : Defaults) (mode : Mode) : Mapper :=
  ⟨config, defaults, mode, none⟩

def isCompiled (m : Mapper) : Bool := m.compiled.isSome

end Mapper

/-- All mappers, each at the position that is its identity. -/
structure Store where
  mappers : List Mapper

namespace Store

def empty : Store := ⟨[]⟩

def size (s : Store) : Nat := s.mappers.length

/-- A mapper of the store; an identity that is not in use has no bindings. -/
def mapper (s : Store) (id : MapperId) : Mapper :=
  s.mappers.getD id (.new [] .empty .safe)

def add (s : Store) (m : Mapper) : MapperId × Store := (s.size, ⟨s.mappers ++ [m]⟩)

def modify (s : Store) (id : MapperId) (f : Mapper → Mapper) : Store :=
  ⟨s.mappers.modify id f⟩

/-- Keep a compiled procedure. -/
def publish (s : Store) (id : MapperId) (p : Procedure) : Store :=
  s.modify id fun m => { m with compiled := some p }

/-- Change the configuration of a mapper that is not compiled. -/
def configure (s : Store) (id : MapperId) (edit : Configuration → Configuration) :
    Except Error Store :=
  if (s.mapper id).isCompiled then .error .alreadyCompiled
  else .ok (s.modify id fun m => { m with config := edit m.config })

end Store

end Reshape
