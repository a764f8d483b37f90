import Reshape.Defaults
import Reshape.Entries

/-! # Bindings

A binding says how the value of one target key is derived from a source. A
configuration binds target keys in order.
-/

namespace Reshape

/-- A function of the whole source; an absent value may be replaced by a default. -/
abbrev Transform := Value → Except MappingFault (Option Value)

/-- How the results of several wildcards are set out. -/
inductive Shape where
  | nested
  | flatten
deriving DecidableEq

/-- What happens after a field has failed. -/
inductive Mode where
  /-- The failure is collected, and the next field follows. -/
  | safe
  /-- The failure ends the run. -/
  | failFast
deriving DecidableEq

def Mode.isFailFast : Mode → Bool
  | safe => false
  | failFast => true

/-- The identity of a mapper in a store. -/
abbrev MapperId := Nat

/-- The rule for one target key. -/
inductive Binding where
  | path (text : String) (shape : Shape)
  | transform (f : Transform)
  /-- Another mapper, run on the source or on the value at a path. -/
  | mapper (id : MapperId) (source : Option String)
  | tree (bindings : List (String × Binding))

/-- Bindings by target key, in the order in which fields are processed. -/
abbrev Configuration := Entries Binding

end Reshape
