import Mathlib.Data.List.Forall2
import Reshape.Document.Form
import Reshape.Proofs.Documents.WellFormed

/-! # Forms that are written

The tree of a field has the form of that field and of none that is tried before
it. The same is true of the value that the tree stands for, in which the members
of objects ascend; so do then the target keys of all inline trees.
-/

namespace Reshape

open Reshape.Tree

theorem Tree.ofMembers_eq_map (members : List (String × Value)) :
    ofMembers members = members.map fun m => (.string m.1, .ofValue m.2) := by
  induction members with
  | nil => rfl
  | cons member rest ih => rw [ofMembers, ih, List.map_cons]

namespace FieldSpec

mutual

/-- A field whose inline trees have their target keys in ascending order. -/
def sorted : FieldSpec → FieldSpec
  | tree fields => tree (Entries.sorted (sortedFields fields))
  | spec => spec

def sortedFields : List (String × FieldSpec) → List (String × FieldSpec)
  | [] => []
  | (key, spec) :: rest => (key, spec.sorted) :: sortedFields rest

end

theorem keys_sortedFields (fields : List (String × FieldSpec)) :
    Entries.keys (sortedFields fields) = Entries.keys fields := by
  induction fields with
  | nil => rfl
  | cons field rest ih => rw [sortedFields, Entries.keys_cons, Entries.keys_cons, ih]

end FieldSpec

section Reading

open FieldSpec

variable {text : String} {args : List Argument} {items : List Tree}

def Spells (entry : Tree × Tree) (field : String × FieldSpec) : Prop :=
  entry.1 = .string field.1 ∧ ofTree? entry.2 = some field.2

theorem ofEntries?_of_spells {entries : List (Tree × Tree)} {fields : List (String × FieldSpec)}
    (hkeys : (Entries.keys fields).Nodup) (h : List.Forall₂ Spells entries fields) :
    ofEntries? entries = some fields := by
  induction h with
  | nil => rfl
  | @cons entry field entries fields hentry _ ih =>
    obtain ⟨key, t⟩ := entry
    obtain ⟨name, spec⟩ := field
    obtain ⟨rfl, ht⟩ := hentry
    obtain ⟨hfresh, hkeys⟩ := List.nodup_cons.mp hkeys
    have hcontains : (fields.map Prod.fst).contains name = false := by
      simpa using hfresh
    simp only [ofEntries?, Form.string?, ht, ih hkeys, Option.bind_eq_bind, Option.bind_some,
      hcontains, Bool.false_eq_true, if_false]

theorem ofTree?_of_callOf? {entries : List (Tree × Tree)} {spec : FieldSpec}
    (hrule : ruleOf? (.mapping entries) = none) (hcall : callOf? (.mapping entries) = some spec) :
    ofTree? (.mapping entries) = some spec := by
  simp only [ofTree?, hrule, hcall]
  rfl

theorem ofTree?_call (h : items.mapM Argument.ofTree? = some args) :
    ofTree? (.mapping [(.string "call", .string text), (.string "args", .sequence items)]) =
      some (.call text args) ∧
    ofTree? (.mapping [(.string "args", .sequence items), (.string "call", .string text)]) =
      some (.call text args) := by
  have hcall : (items.mapM Argument.ofTree?).bind (fun args => some (FieldSpec.call text args)) =
      some (.call text args) := by rw [h, Option.bind_some]
  exact ⟨ofTree?_of_callOf? rfl hcall, ofTree?_of_callOf? rfl hcall⟩

theorem ofTree?_tree {entries : List (Tree × Tree)} {fields : List (String × FieldSpec)}
    (h : ofEntries? entries = some fields) :
    ofTree? (.mapping [(.string "fields", .mapping entries)]) = some (.tree fields) := by
  have hform : ofTree? (.mapping [(.string "fields", .mapping entries)]) =
      (ofEntries? entries).map .tree := rfl
  rw [hform, h, Option.map_some]

theorem Argument.ofTree?_toTree (arg : Argument) (h : arg.ValidLiteral) :
    Argument.ofTree? arg.toTree = some arg := by
  cases arg with
  | path text => rfl
  | literal v =>
    have hkey : FieldKey.ofTree? ["value"] (.string "value") = some (.field 0) := rfl
    simp [Argument.toTree, Argument.ofTree?, Argument.ofEntries?, hkey, Tree.toValue?_ofValue v h]

theorem mapM_ofTree?_toTree (args : List Argument) (h : ∀ arg ∈ args, arg.ValidLiteral) :
    (args.map Argument.toTree).mapM Argument.ofTree? = some args := by
  induction args with
  | nil => rfl
  | cons arg rest ih =>
    obtain ⟨harg, hrest⟩ := List.forall_mem_cons.mp h
    rw [List.map_cons, List.mapM_cons, arg.ofTree?_toTree harg, ih hrest]
    rfl

mutual

theorem FieldSpec.ofTree?_toTree (spec : FieldSpec) (hkeys : spec.DistinctKeys)
    (hliterals : spec.ValidLiterals) : ofTree? spec.toTree = some spec := by
  cases spec with
  | path text => rfl
  | rule text flatten => cases flatten <;> rfl
  | call target args =>
    rw [FieldSpec.toTree]
    exact (ofTree?_call (mapM_ofTree?_toTree args hliterals)).1
  | mapper name source => cases source <;> rfl
  | tree fields =>
    rw [FieldSpec.toTree]
    exact ofTree?_tree (ofEntries?_of_spells hkeys.1 (spells_toEntries fields hkeys.2 hliterals))

theorem spells_toEntries (fields : List (String × FieldSpec)) (hkeys : DistinctKeysIn fields)
    (hliterals : ValidLiteralsIn fields) : List.Forall₂ Spells (toEntries fields) fields := by
  match fields with
  | [] => exact .nil
  | (key, spec) :: rest =>
    rw [toEntries]
    exact .cons ⟨rfl, spec.ofTree?_toTree hkeys.1 hliterals.1⟩
      (spells_toEntries rest hkeys.2 hliterals.2)

end

end Reading

section Values

open FieldSpec

theorem Argument.toValue?_toTree (arg : Argument) (h : arg.ValidLiteral) :
    ∃ v, arg.toTree.toValue? = some v ∧ Tree.ofValue v = arg.toTree := by
  cases arg with
  | path text => exact ⟨.string text, rfl, rfl⟩
  | literal v =>
    refine ⟨.object [("value", v)], ?_, rfl⟩
    simp [Argument.toTree, Tree.toValue?, Tree.toMembers?, Tree.toValue?_ofValue v h]
    rfl

theorem toItems?_toTree (args : List Argument) (h : ∀ arg ∈ args, arg.ValidLiteral) :
    ∃ vs, toItems? (args.map Argument.toTree) = some vs ∧
      ofItems vs = args.map Argument.toTree := by
  induction args with
  | nil => exact ⟨[], rfl, rfl⟩
  | cons arg rest ih =>
    obtain ⟨harg, hrest⟩ := List.forall_mem_cons.mp h
    obtain ⟨v, hv, hv'⟩ := arg.toValue?_toTree harg
    obtain ⟨vs, hvs, hvs'⟩ := ih hrest
    refine ⟨v :: vs, ?_, ?_⟩
    · rw [List.map_cons, toItems?, hv, hvs]
      rfl
    · rw [List.map_cons, ofItems, hv', hvs']

/-- A member has the key of a field, and a value whose tree has its form. -/
def Holds (member : String × Value) (field : String × FieldSpec) : Prop :=
  member.1 = field.1 ∧ ofTree? (.ofValue member.2) = some field.2

theorem spells_of_holds {members : Members} {fields : List (String × FieldSpec)}
    (h : List.Forall₂ Holds members fields) : List.Forall₂ Spells (ofMembers members) fields := by
  rw [Tree.ofMembers_eq_map, List.forall₂_map_left_iff]
  exact h.imp fun member field ⟨hkey, hform⟩ => ⟨congrArg Tree.string hkey, hform⟩

theorem holds_ofList {members : Members} {fields : List (String × FieldSpec)}
    (hkeys : (Entries.keys fields).Nodup) (h : List.Forall₂ Holds members fields) :
    List.Forall₂ Holds (Members.ofList members) (Entries.sorted fields) := by
  have hmembers : (Entries.keys members).Nodup :=
    Entries.keys_eq_of_forall₂ (fun _ _ hab => hab.1) h ▸ hkeys
  rw [Members.ofList_eq_sorted hmembers]
  exact Entries.forall₂_sorted (fun _ _ hab => hab.1) hmembers h

theorem ofEntries?_of_holds {members : Members} {fields : List (String × FieldSpec)}
    (hkeys : (Entries.keys fields).Nodup) (h : List.Forall₂ Holds members fields) :
    ofEntries? (ofMembers members) = some fields :=
  ofEntries?_of_spells hkeys (spells_of_holds h)

mutual

/-- The tree of a field stands for a value, which is read as the field, but sorted. -/
theorem FieldSpec.exists_toValue? (spec : FieldSpec) (hkeys : spec.DistinctKeys)
    (hliterals : spec.ValidLiterals) :
    ∃ v, spec.toTree.toValue? = some v ∧ ofTree? (.ofValue v) = some spec.sorted := by
  cases spec with
  | path text => exact ⟨.string text, rfl, rfl⟩
  | rule text flatten => cases flatten <;> exact ⟨_, rfl, rfl⟩
  | call target args =>
    obtain ⟨vs, hvs, hvs'⟩ := toItems?_toTree args hliterals
    refine ⟨.object [("args", .array vs), ("call", .string target)], ?_, ?_⟩
    · simp [FieldSpec.toTree, Tree.toValue?, Tree.toMembers?, hvs]
      rfl
    · rw [Tree.ofValue, ofMembers, ofMembers, ofMembers, Tree.ofValue, Tree.ofValue, hvs']
      exact (ofTree?_call (mapM_ofTree?_toTree args hliterals)).2
  | mapper name source => cases source <;> exact ⟨_, rfl, rfl⟩
  | tree fields =>
    obtain ⟨members, hmembers, hholds⟩ := exists_toMembers? fields hkeys.2 hliterals
    have hkeys' : (Entries.keys (sortedFields fields)).Nodup :=
      (keys_sortedFields fields).symm ▸ hkeys.1
    refine ⟨.object [("fields", .object (Members.ofList members))], ?_, ?_⟩
    · simp [FieldSpec.toTree, Tree.toValue?, Tree.toMembers?, hmembers]
      rfl
    · rw [FieldSpec.sorted]
      refine ofTree?_tree (ofEntries?_of_holds ?_ (holds_ofList hkeys' hholds))
      exact ((Entries.sorted_perm _).map Prod.fst).nodup_iff.mpr hkeys'

theorem exists_toMembers? (fields : List (String × FieldSpec)) (hkeys : DistinctKeysIn fields)
    (hliterals : ValidLiteralsIn fields) :
    ∃ members, toMembers? (toEntries fields) = some members ∧
      List.Forall₂ Holds members (sortedFields fields) := by
  match fields with
  | [] => exact ⟨[], rfl, .nil⟩
  | (key, spec) :: rest =>
    obtain ⟨v, hv, hform⟩ := spec.exists_toValue? hkeys.1 hliterals.1
    obtain ⟨members, hmembers, hholds⟩ := exists_toMembers? rest hkeys.2 hliterals.2
    refine ⟨(key, v) :: members, ?_, .cons ⟨rfl, hform⟩ hholds⟩
    rw [toEntries, toMembers?]
    simp [hv, hmembers]

end

end Values

end Reshape
