import Reshape.Proofs.Running.Modes

/-! # Failing points

A run in safe mode visits the bindings of its procedure, those of inline trees
and of safe embedded mappers included. Each binding that fails there is one
error of the outcome, in the order of the bindings.
-/

namespace Reshape

/-- A binding around a failing one, under its key; only a safe mapper collects what fails in it. -/
inductive Enclosure where
  | tree (key : String)
  | mapper (key : String)
deriving DecidableEq

namespace Enclosure

def key : Enclosure → String
  | tree key => key
  | mapper key => key

def isTree : Enclosure → Bool
  | tree _ => true
  | mapper _ => false

end Enclosure

/-- A binding that fails in a run. -/
structure FailingPoint where
  enclosures : List Enclosure
  key : String
  scope : Scope
  fault : MappingFault
deriving DecidableEq

namespace FailingPoint

/-- A point as seen from the object in which the enclosure is bound. -/
def inside (enclosure : Enclosure) (p : FailingPoint) : FailingPoint :=
  { p with enclosures := enclosure :: p.enclosures }

def keys (p : FailingPoint) : List String := p.enclosures.map Enclosure.key ++ [p.key]

def InMapper (p : FailingPoint) : Prop := p.enclosures.any (!·.isTree) = true

instance (p : FailingPoint) : Decidable p.InMapper := inferInstanceAs (Decidable (_ = true))

def toError (p : FailingPoint) : FieldError where
  scope := if p.scope = .field ∧ p.enclosures.any Enclosure.isTree then .nestedField else p.scope
  field := ".".intercalate p.keys
  fault := p.fault

end FailingPoint

mutual

/-- The failing points of a procedure that runs in safe mode. -/
def Procedure.failingPoints (source : Value) : Procedure → List FailingPoint
  | .mk _ fields => failingPointsOf source fields

def failingPointsOf (source : Value) : List Field → List FailingPoint
  | [] => []
  | .mk key plan _ :: rest => plan.failingPoints source key ++ failingPointsOf source rest

def Plan.failingPoints (source : Value) (key : String) : Plan → List FailingPoint
  | .path path shape =>
    match path.resolveAs shape source with
    | .ok _ => []
    | .error fault => [⟨[], key, .field, fault⟩]
  | .transform f =>
    match f source with
    | .ok _ => []
    | .error fault => [⟨[], key, .field, fault⟩]
  | .mapper procedure at? =>
    match embeddedSource at? source with
    | .error fault => [⟨[], key, .mapper, fault⟩]
    | .ok none => []
    | .ok (some selected) =>
      match procedure.mode with
      | .safe => (procedure.failingPoints selected).map (.inside (.mapper key))
      | .failFast =>
        match procedure.evaluate selected with
        | .ok _ => []
        | .error fault => [⟨[], key, .mapper, .nested fault.message⟩]
  | .tree procedure => (procedure.failingPoints source).map (.inside (.tree key))

end

namespace FailingPoint

theorem keys_inside (enclosure : Enclosure) (p : FailingPoint) :
    (p.inside enclosure).keys = enclosure.key :: p.keys := rfl

theorem keys_ne_nil (p : FailingPoint) : p.keys ≠ [] := by simp [keys]

theorem field_toError_inside (enclosure : Enclosure) (p : FailingPoint) :
    (p.inside enclosure).toError.field = s!"{enclosure.key}.{p.toError.field}" := by
  rw [toError, keys_inside, String.intercalate_cons_of_ne_nil p.keys_ne_nil]
  rfl

theorem toError_inside_mapper (key : String) (p : FailingPoint) :
    (p.inside (.mapper key)).toError = p.toError.under key := by
  have h := p.field_toError_inside (.mapper key)
  rw [toError] at h ⊢
  simp only [FieldError.under, FieldError.mk.injEq]
  refine ⟨?_, h, rfl⟩
  simp [inside, toError, Enclosure.isTree]

theorem toError_inside_tree (key : String) (p : FailingPoint) :
    (p.inside (.tree key)).toError = p.toError.underTree key := by
  have h := p.field_toError_inside (.tree key)
  rw [toError] at h ⊢
  simp only [FieldError.underTree, FieldError.under, FieldError.mk.injEq]
  refine ⟨?_, h, rfl⟩
  simp only [inside, toError, List.any_cons, Enclosure.isTree, Bool.true_or, and_true]
  cases p.scope with
  | field => cases p.enclosures.any Enclosure.isTree <;> rfl
  | nestedField => rfl
  | mapper => rfl

theorem inMapper_inside_mapper (key : String) (p : FailingPoint) :
    (p.inside (.mapper key)).InMapper := by
  simp [InMapper, inside, Enclosure.isTree]

theorem inMapper_inside_tree (key : String) (p : FailingPoint) :
    (p.inside (.tree key)).InMapper ↔ p.InMapper := by
  simp [InMapper, inside, Enclosure.isTree]

end FailingPoint

end Reshape
