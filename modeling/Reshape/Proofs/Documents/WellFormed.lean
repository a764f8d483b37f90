import Reshape.Document.Encode
import Reshape.Proofs.Documents.Sorting

/-! # Well-formed documents

Numbers are finite, the members of an object ascend, and no target key is
declared twice. A value of this kind is the one that its tree stands for.
-/

namespace Reshape

mutual

/-- The numbers of a value are finite, and the members of its objects ascend. -/
def Value.WellFormed : Value → Prop
  | .number (.float x) => x.isFinite
  | .array items => WellFormedItems items
  | .object members => Entries.Ascending members ∧ WellFormedMembers members
  | _ => True

def WellFormedItems : List Value → Prop
  | [] => True
  | v :: rest => v.WellFormed ∧ WellFormedItems rest

def WellFormedMembers : List (String × Value) → Prop
  | [] => True
  | (_, v) :: rest => v.WellFormed ∧ WellFormedMembers rest

end

mutual

/-- No target key of an inline tree is declared twice. -/
def FieldSpec.DistinctKeys : FieldSpec → Prop
  | .tree fields => (Entries.keys fields).Nodup ∧ DistinctKeysIn fields
  | _ => True

def DistinctKeysIn : List (String × FieldSpec) → Prop
  | [] => True
  | (_, spec) :: rest => spec.DistinctKeys ∧ DistinctKeysIn rest

end

def Argument.ValidLiteral : Argument → Prop
  | .path _ => True
  | .literal v => v.WellFormed

mutual

def FieldSpec.ValidLiterals : FieldSpec → Prop
  | .call _ args => ∀ arg ∈ args, arg.ValidLiteral
  | .tree fields => ValidLiteralsIn fields
  | _ => True

def ValidLiteralsIn : List (String × FieldSpec) → Prop
  | [] => True
  | (_, spec) :: rest => spec.ValidLiterals ∧ ValidLiteralsIn rest

end

structure FieldSpec.WellFormed (spec : FieldSpec) : Prop where
  keys : spec.DistinctKeys
  literals : spec.ValidLiterals

def Document.DistinctKeys (d : Document) : Prop := (FieldSpec.tree d.fields).DistinctKeys

structure Document.WellFormed (d : Document) : Prop where
  fields : (FieldSpec.tree d.fields).WellFormed
  defaults : d.defaults.toValue.WellFormed

theorem wellFormed_of_lookup {key : String} {v : Value} {members : Members}
    (hmembers : WellFormedMembers members) (h : members.lookup key = some v) : v.WellFormed := by
  induction members with
  | nil => cases h
  | cons member rest ih =>
    rw [Members.lookup_cons] at h
    split at h
    · exact Option.some.inj h ▸ hmembers.1
    · exact ih hmembers.2 h

mutual

theorem Tree.toValue?_ofValue (v : Value) (h : v.WellFormed) :
    (Tree.ofValue v).toValue? = some v := by
  cases v with
  | null => rfl
  | bool b => rfl
  | number n =>
    cases n with
    | int n => rfl
    | float x =>
      have hx : Value.ofBinary64? x = some (.number (.float x)) := if_pos h
      rw [Tree.ofValue, Tree.toValue?, hx, Option.getD_some]
  | string s => rfl
  | array items =>
    rw [Tree.ofValue, Tree.toValue?, Tree.toItems?_ofItems items h, Option.map_some]
  | object members =>
    obtain ⟨hascending, hmembers⟩ := h
    rw [Tree.ofValue, Tree.toValue?, Tree.toMembers?_ofMembers members hmembers, Option.map_some,
      Members.ofList_eq_self hascending]

theorem Tree.toItems?_ofItems (items : List Value) (h : WellFormedItems items) :
    Tree.toItems? (Tree.ofItems items) = some items := by
  match items with
  | [] => rfl
  | v :: rest =>
    rw [Tree.ofItems, Tree.toItems?, Tree.toValue?_ofValue v h.1, Tree.toItems?_ofItems rest h.2]
    rfl

theorem Tree.toMembers?_ofMembers (members : List (String × Value))
    (h : WellFormedMembers members) : Tree.toMembers? (Tree.ofMembers members) = some members := by
  match members with
  | [] => rfl
  | (key, v) :: rest =>
    rw [Tree.ofMembers, Tree.toMembers?]
    simp [Tree.toValue?_ofValue v h.1, Tree.toMembers?_ofMembers rest h.2]

end

end Reshape
