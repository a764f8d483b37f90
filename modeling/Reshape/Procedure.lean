import Reshape.Binding
import Reshape.Path.Resolve

/-! # Procedures

A procedure is a configuration made ready to run: its paths are read, the
procedures of embedded mappers are in place, and each field carries its default.
In safe mode every field is isolated: a failure becomes a field error, and the
other fields are not affected. In fail-fast mode the first failure ends the run.
An embedded mapper runs in its own mode, and an inline tree in that of its
procedure, which is the one around it.
-/

namespace Reshape

mutual

/-- A plan for all fields of a target object. -/
inductive Procedure where
  | mk (mode : Mode) (fields : List Field)

/-- A target key, how its value is found, and what stands in for an absent one. -/
inductive Field where
  | mk (key : String) (plan : Plan) (default : Option Value)

/-- How the value of one field is found. -/
inductive Plan where
  | path (path : Path) (shape : Shape)
  | transform (f : Transform)
  | mapper (procedure : Procedure) (source : Option Path)
  | tree (procedure : Procedure)

end

instance : Inhabited Procedure := ⟨.mk .safe []⟩

def Field.key : Field → String
  | mk key _ _ => key

namespace Procedure

def mode : Procedure → Mode
  | mk mode _ => mode

def fields : Procedure → List Field
  | mk _ fields => fields

def keys (p : Procedure) : List String := p.fields.map Field.key

end Procedure

/-- Where in the tree of bindings a failure was caught. -/
inductive Scope where
  | field
  | nestedField
  | mapper
deriving DecidableEq

def Scope.text : Scope → String
  | field => "field"
  | nestedField => "nested field"
  | mapper => "Mapper"

/-- A failure of one target field. -/
structure FieldError where
  scope : Scope
  field : String
  fault : MappingFault
deriving DecidableEq

namespace FieldError

def message (e : FieldError) : String :=
  s!"Mapping error at {e.scope.text} '{e.field}': {e.fault.message}"

/-- The error as seen from the object that holds `key`. -/
def under (key : String) (e : FieldError) : FieldError := { e with field := s!"{key}.{e.field}" }

def underTree (key : String) (e : FieldError) : FieldError :=
  let scope := match e.scope with
    | .field => .nestedField
    | other => other
  { e with scope }.under key

end FieldError

/-- A target object and the failures of its fields, in order. -/
structure Outcome where
  result : Members
  errors : List FieldError

namespace Outcome

def empty : Outcome := ⟨[], []⟩

def isSuccess (o : Outcome) : Bool := o.errors.isEmpty

end Outcome

/-- What one field adds to an outcome: a value unless it is absent, and errors from below. -/
structure Contribution where
  value : Option Value
  errors : List FieldError

def Contribution.orDefault (default : Option Value) (c : Contribution) : Contribution :=
  { c with value := c.value <|> default }

/-- A failure of a field before its key is known. -/
structure Failure where
  scope : Scope
  fault : MappingFault

def Outcome.add (key : String) (c : Contribution) (o : Outcome) : Outcome where
  result := match c.value with
    | some v => o.result.insert key v
    | none => o.result
  errors := o.errors ++ c.errors

def Path.resolveAs (shape : Shape) (p : Path) (source : Value) :
    Except MappingFault (Option Value) :=
  match shape with
  | .nested => p.resolve source
  | .flatten => p.resolveFlat source

/-- The value that an embedded mapper runs on; an absent or null one is not mapped. -/
def embeddedSource (at? : Option Path) (source : Value) : Except MappingFault (Option Value) :=
  let present (v : Option Value) : Option Value := v.filter fun v => !v.isNull
  match at? with
  | none => .ok (present (some source))
  | some path => (path.resolve source).map present

/--
The contribution of an embedded mapper. Its faults become text; a fail-fast
parent takes the first error of a safe child for a failure.
-/
def embed (mode : Mode) (key : String) (child : Except MappingFault Outcome) :
    Except Failure Contribution :=
  match child with
  | .error fault => .error ⟨.mapper, .nested fault.message⟩
  | .ok outcome =>
    match mode, outcome.errors with
    | .failFast, first :: _ => .error ⟨.mapper, .nested first.fault.message⟩
    | _, errors => .ok ⟨some (.object outcome.result), errors.map (.under key)⟩

/-- What a failed field contributes, or the fault that ends the run. -/
def settle (mode : Mode) (key : String) (r : Except Failure Contribution) :
    Except MappingFault Contribution :=
  match r, mode with
  | .ok c, _ => .ok c
  | .error failure, .failFast => .error failure.fault
  | .error failure, .safe => .ok ⟨none, [⟨failure.scope, key, failure.fault⟩]⟩

mutual

/-- Run a procedure; only a fail-fast one ends with a fault. -/
def Procedure.evaluate (source : Value) : Procedure → Except MappingFault Outcome
  | .mk mode fields => evaluateFields mode source .empty fields

/-- Process fields in order, adding to the outcome of those before them. -/
def evaluateFields (mode : Mode) (source : Value) (before : Outcome) :
    List Field → Except MappingFault Outcome
  | [] => .ok before
  | .mk key plan default :: rest => do
    let found := (plan.contribution mode source key).map (Contribution.orDefault default)
    let c ← settle mode key found
    evaluateFields mode source (before.add key c) rest

def Plan.contribution (mode : Mode) (source : Value) (key : String) :
    Plan → Except Failure Contribution
  | .path path shape =>
    match path.resolveAs shape source with
    | .ok v => .ok ⟨v, []⟩
    | .error fault => .error ⟨.field, fault⟩
  | .transform f =>
    match f source with
    | .ok v => .ok ⟨v, []⟩
    | .error fault => .error ⟨.field, fault⟩
  | .mapper procedure at? =>
    match embeddedSource at? source with
    | .error fault => .error ⟨.mapper, fault⟩
    | .ok none => .ok ⟨none, []⟩
    | .ok (some selected) => embed mode key (procedure.evaluate selected)
  | .tree procedure =>
    match procedure.evaluate source with
    | .ok outcome => .ok ⟨some (.object outcome.result), outcome.errors.map (.underTree key)⟩
    | .error fault => .error ⟨.nestedField, fault⟩

end

def Procedure.run (p : Procedure) (source : Value) : Except Error Outcome :=
  (p.evaluate source).mapError .mapping

end Reshape
