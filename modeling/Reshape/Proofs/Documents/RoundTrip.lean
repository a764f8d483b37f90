import Reshape.Proofs.Documents.Decoding
import Reshape.Yaml.Printer

/-! # Writing and reading back

Documents and fields are read back as they were written: from a text, if it has
the tree that was written, and from a value, in which keys ascend.
-/

namespace Reshape

open Yaml

/-- The tree of a text that is a single document without tags and aliases. -/
def Tree.ofYaml? (text : String) : Option Tree :=
  match Content.ofText text with
  | .document root .whole => root.tree? NodeDecoder.maxDepth
  | _ => none

def Document.sorted (d : Document) : Document :=
  { d with fields := Entries.sorted (FieldSpec.sortedFields d.fields) }

theorem Tree.exists_root {text : String} {t : Tree} (h : Tree.ofYaml? text = some t) :
    ∃ root, Content.ofText text = .document root .whole ∧
      root.tree? NodeDecoder.maxDepth = some t := by
  rw [Tree.ofYaml?] at h
  split at h
  · rename_i root hcontent
    exact ⟨root, hcontent, h⟩
  · cases h

theorem FieldSpec.ofText_toYaml {spec : FieldSpec} (hspec : spec.WellFormed)
    (h : Tree.ofYaml? spec.toTree.toYaml = some spec.toTree) :
    FieldSpec.ofText spec.toTree.toYaml = .ok spec := by
  obtain ⟨root, hcontent, htree⟩ := Tree.exists_root h
  have hreads : (FieldSpec.ofRoot root).Reads spec := by
    refine (NodeDecoder.reads_tree htree []).bind ?_
    rw [spec.ofTree?_toTree hspec.keys hspec.literals]
    exact .pure spec
  rw [FieldSpec.ofText, hcontent]
  exact NodeDecoder.decodeRoot_of_reads hreads

theorem Document.ofText_toYaml {d : Document} (hd : d.WellFormed)
    (h : Tree.ofYaml? d.toTree.toYaml = some d.toTree) :
    Document.ofText d.toTree.toYaml = .ok d := by
  obtain ⟨root, hcontent, htree⟩ := Tree.exists_root h
  have hreads : (Document.ofRoot root).Reads d :=
    NodeDecoder.reads_entries htree
      (fun depth es _ hes => NodeDecoder.reads_document hd rfl hes) _ _
  rw [Document.ofText, hcontent]
  exact NodeDecoder.decodeRoot_of_reads hreads

theorem FieldSpec.decode_toValue {spec : FieldSpec} (h : spec.WellFormed) :
    FieldSpec.decode spec.toValue = .ok spec.sorted := by
  obtain ⟨v, hv, hform⟩ := spec.exists_toValue? h.keys h.literals
  rw [FieldSpec.toValue, hv, Option.getD_some, FieldSpec.decode, hform]

def Document.members (d : Document) (fields : Members) : Members :=
  let defaults := if d.defaults.root.isEmpty then [] else [("defaults", d.defaults.toValue)]
  [("name", .string d.name), ("options", .object [("use_unsafe", .bool d.mode.isFailFast)])] ++
    defaults ++ [("fields", .object (Members.ofList fields))]

theorem Document.nodup_keys_members (d : Document) (fields : Members) :
    (Entries.keys (d.members fields)).Nodup := by
  rw [Document.members]
  split <;> simp [Entries.keys]

theorem Document.toValue_eq {d : Document} (h : d.WellFormed) {fields : Members}
    (hfields : Tree.toMembers? (FieldSpec.toEntries d.fields) = some fields) :
    d.toValue = .object (Members.ofList (d.members fields)) := by
  have hdefaults : (Tree.ofValue d.defaults.toValue).toValue? = some d.defaults.toValue :=
    Tree.toValue?_ofValue _ h.defaults
  have hmode : Members.ofList [("use_unsafe", .bool d.mode.isFailFast)] =
      [("use_unsafe", .bool d.mode.isFailFast)] := rfl
  have htree : d.toTree.toValue? = some (.object (Members.ofList (d.members fields))) := by
    rw [Document.toTree, Document.members]
    split <;> simp [Tree.toValue?, Tree.toMembers?, hfields, hdefaults, hmode]
  rw [Document.toValue, htree, Option.getD_some]

theorem Document.member?_members {d : Document} {fields : Members} {key : String} {v : Value}
    {α : Type} {decoder : Decoder α} {a : α} (hkey : (d.members fields).lookup key = some v)
    (hv : decoder v = .ok a) :
    Decode.member? (Members.ofList (d.members fields)) key decoder = .ok (some a) := by
  rw [Decode.member?, Members.lookup_ofList (d.nodup_keys_members fields), hkey]
  dsimp only
  rw [hv]
  rfl

theorem Document.member?_defaults (d : Document) (fields : Members) :
    ∃ defaults?, Decode.member? (Members.ofList (d.members fields)) "defaults" Defaults.decode =
      .ok defaults? ∧ defaults?.getD .empty = d.defaults := by
  by_cases hempty : d.defaults.root.isEmpty
  · have hlookup : (d.members fields).lookup "defaults" = none := by
      rw [Document.members, if_pos hempty]
      rfl
    refine ⟨none, ?_, congrArg Defaults.mk (List.isEmpty_iff.mp hempty).symm⟩
    rw [Decode.member?, Members.lookup_ofList (d.nodup_keys_members fields), hlookup]
  · have hlookup : (d.members fields).lookup "defaults" = some d.defaults.toValue := by
      rw [Document.members, if_neg hempty]
      rfl
    exact ⟨some d.defaults, Document.member?_members hlookup rfl, rfl⟩

theorem Document.decode_toValue {d : Document} (h : d.WellFormed) :
    Document.decode d.toValue = .ok d.sorted := by
  obtain ⟨fields, hfields, hholds⟩ := exists_toMembers? d.fields h.fields.keys.2 h.fields.literals
  have hkeys : (Entries.keys (FieldSpec.sortedFields d.fields)).Nodup :=
    (FieldSpec.keys_sortedFields d.fields).symm ▸ h.fields.keys.1
  have hdecode : FieldSpec.decodeFields (.object (Members.ofList fields)) =
      .ok (Entries.sorted (FieldSpec.sortedFields d.fields)) := by
    rw [FieldSpec.decodeFields, mapM_eq_ok_iff]
    refine (holds_ofList hkeys hholds).imp fun ⟨key, v⟩ ⟨name, spec⟩ ⟨hkey, hform⟩ => ?_
    dsimp only at hkey hform ⊢
    rw [FieldSpec.decode, hform, hkey]
    rfl
  have hmode : Mode.decode (.object [("use_unsafe", .bool d.mode.isFailFast)]) = .ok d.mode := by
    cases d.mode <;> rfl
  have hlookup : (d.members fields).lookup "fields" =
      some (.object (Members.ofList fields)) := by
    rw [Document.members]
    split <;> rfl
  obtain ⟨defaults?, hdefaults, hdefault⟩ := d.member?_defaults fields
  have hname : Decode.member? (Members.ofList (d.members fields)) "name" Decode.string =
      .ok (some d.name) := Document.member?_members rfl rfl
  have hoptions : Decode.member? (Members.ofList (d.members fields)) "options" Mode.decode =
      .ok (some d.mode) := Document.member?_members rfl hmode
  rw [Document.toValue_eq h hfields, Document.decode, Decode.record, hdefaults,
    Document.member?_members hlookup hdecode, hname, hoptions]
  rw [Document.sorted, ← hdefault]
  rfl

/--
Well-formed documents are read back from the text that is written for them, if it
has the tree that was written. Read back from a value, they are the same but for
the order of target keys, which ascend at every depth. The same is true of fields
on their own.
-/
theorem reading_inverts_writing :
    (∀ d : Document, d.WellFormed →
      (Tree.ofYaml? d.toTree.toYaml = some d.toTree → Document.ofText d.toTree.toYaml = .ok d) ∧
      Document.decode d.toValue = .ok d.sorted) ∧
    ∀ spec : FieldSpec, spec.WellFormed →
      (Tree.ofYaml? spec.toTree.toYaml = some spec.toTree →
        FieldSpec.ofText spec.toTree.toYaml = .ok spec) ∧
      FieldSpec.decode spec.toValue = .ok spec.sorted :=
  ⟨fun _ hd => ⟨Document.ofText_toYaml hd, Document.decode_toValue hd⟩,
    fun _ hspec => ⟨FieldSpec.ofText_toYaml hspec, FieldSpec.decode_toValue hspec⟩⟩

/-- A tree, and behind it a call with a literal that looks like a rule. -/
def descending : Document where
  name := "m"
  mode := .failFast
  defaults := .empty
  fields :=
    [("b", .tree [("d", .path "p"), ("c", .path "q")]),
      ("a", .call "f.g" [.literal (.object [("path", .null)])])]

theorem wellFormed_descending : descending.WellFormed where
  fields :=
    { keys := ⟨by decide, ⟨by decide, trivial, trivial, trivial⟩, trivial, trivial⟩
      literals :=
        ⟨⟨trivial, trivial, trivial⟩,
          List.forall_mem_singleton.mpr ⟨List.pairwise_singleton _ _, trivial, trivial⟩, trivial⟩ }
  defaults := ⟨List.Pairwise.nil, trivial⟩

theorem reading_inverts_writing_descending :
    Document.ofText descending.toTree.toYaml = .ok descending ∧
      Document.decode descending.toValue = .ok descending.sorted ∧
      FieldSpec.ofText (FieldSpec.rule "p" true).toTree.toYaml = .ok (.rule "p" true) ∧
      FieldSpec.decode (FieldSpec.rule "p" true).toValue = .ok (.rule "p" true) := by
  obtain ⟨hdocument, hfield⟩ := reading_inverts_writing
  obtain ⟨htext, hvalue⟩ := hdocument descending wellFormed_descending
  obtain ⟨htext', hvalue'⟩ := hfield (.rule "p" true) ⟨trivial, trivial⟩
  exact ⟨htext (by decide +kernel), hvalue, htext' (by decide +kernel), hvalue'⟩

end Reshape
