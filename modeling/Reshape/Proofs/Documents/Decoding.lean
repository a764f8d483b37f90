import Reshape.Document.OfText
import Reshape.Proofs.Documents.Forms
import Reshape.Proofs.Documents.Nodes

/-! # Decoding nodes that have a tree

What is decoded from a node that has a tree depends on the tree alone, and no
alias is followed on the way. The node of a document that was written is decoded
as the document.
-/

namespace Reshape

open Yaml

namespace Tree

theorem toItems?_eq_mapM (trees : List Tree) : toItems? trees = trees.mapM toValue? := by
  induction trees with
  | nil => rfl
  | cons t rest ih => rw [toItems?, List.mapM_cons, ih]

theorem forall₂_of_toMembers? {entries : List (Tree × Tree)} {members : List (String × Value)}
    (h : toMembers? entries = some members) :
    List.Forall₂ (fun e m => e.1 = string m.1 ∧ e.2.toValue? = some m.2) entries members := by
  induction entries generalizing members with
  | nil =>
    obtain rfl := Option.some.inj h
    exact .nil
  | cons entry rest ih =>
    obtain ⟨key, t⟩ := entry
    cases key with
    | string key =>
      simp only [toMembers?, Option.bind_eq_bind, Option.bind_eq_some_iff, Option.pure_def,
        Option.some.injEq] at h
      obtain ⟨v, hv, others, hothers, rfl⟩ := h
      exact .cons ⟨rfl, hv⟩ (ih hothers)
    | _ => cases h

end Tree

theorem forall₂_trans {α β γ : Type} {R : α → β → Prop} {S : β → γ → Prop} {as : List α}
    {bs : List β} {cs : List γ} (h : List.Forall₂ R as bs) (h' : List.Forall₂ S bs cs) :
    List.Forall₂ (fun a c => ∃ b, R a b ∧ S b c) as cs := by
  induction h generalizing cs with
  | nil =>
    cases h'
    exact .nil
  | cons hab _ ih =>
    cases h' with
    | cons hbc h' => exact .cons ⟨_, hab, hbc⟩ (ih h')

namespace NodeDecoder

/-- A decoder gives a result wherever it is used, and follows no alias. -/
def Reads {α : Type} (act : NodeDecoder α) (a : α) : Prop :=
  ∀ anchors count, act anchors count = .ok (a, count)

namespace Reads

variable {α β : Type} {act : NodeDecoder α} {a : α} {b : β}

theorem pure (a : α) : Reads (Pure.pure a) a := fun _ _ => rfl

theorem bind {f : α → NodeDecoder β} (h : Reads act a) (hf : Reads (f a) b) :
    Reads (act >>= f) b := by
  intro anchors count
  have hbind : (act >>= f) anchors count =
      act anchors count >>= fun r => f r.1 anchors r.2 := rfl
  rw [hbind, h, ← hf anchors count]
  rfl

theorem map (f : α → β) (h : Reads act a) : Reads (f <$> act) (f a) := by
  rw [← bind_pure_comp]
  exact h.bind (.pure (f a))

theorem placed {mark : Mark} {path : NodePath} (h : Reads act a) :
    Reads (NodeDecoder.placed mark path act) a := by
  intro anchors count
  rw [NodeDecoder.placed, h]
  rfl

theorem visit {n : Node} {path : NodePath} {f : Node → NodeDecoder α} {depth : Nat} {t : Tree}
    (hn : n.HasTree depth t) (h : Reads (f n) a) : Reads (NodeDecoder.visit path n f) a := by
  cases hn with
  | @scalar _ p text style => exact (Reads.pure (Node.scalar p text style)).bind h.placed
  | @sequence _ p items => exact (Reads.pure (Node.sequence p items)).bind h.placed
  | @mapping _ p entries => exact (Reads.pure (Node.mapping p entries)).bind h.placed

theorem mapM {f : α → NodeDecoder β} {as : List α} {bs : List β}
    (h : List.Forall₂ (fun a b => Reads (f a) b) as bs) : Reads (as.mapM f) bs := by
  induction h with
  | nil => exact .pure []
  | cons hab _ ih =>
    rw [List.mapM_cons]
    exact hab.bind (ih.bind (.pure _))

theorem foldlM_cons {γ : Type} {f : β → γ → NodeDecoder β} {b c e : β} {x : γ} {xs : List γ}
    (h : Reads (f b x) c) (hrest : Reads (xs.foldlM f c) e) : Reads ((x :: xs).foldlM f b) e := by
  rw [List.foldlM_cons]
  exact h.bind hrest

theorem mapM_zipIdx {f : α × Nat → NodeDecoder β} {as : List α} {bs : List β}
    (h : List.Forall₂ (fun a b => ∀ i, Reads (f (a, i)) b) as bs) (start : Nat) :
    Reads ((as.zipIdx start).mapM f) bs := by
  induction h generalizing start with
  | nil => exact .pure []
  | cons hab _ ih =>
    rw [List.zipIdx_cons, List.mapM_cons]
    exact (hab start).bind ((ih (start + 1)).bind (.pure _))

end Reads

variable {n : Node} {depth : Nat} {t : Tree} {path : NodePath}

theorem isTagged_eq_false {p : Properties} (h : p.tag = none) : isTagged p = false := by
  rw [isTagged, h]
  rfl

/-- A node that has a tree is decoded as it. -/
theorem reads_tree (h : n.tree? depth = some t) (path : NodePath) :
    Reads (tree path n depth) t := by
  induction depth using Nat.strongRecOn generalizing n t path with
  | ind depth ih =>
    rw [tree]
    refine .visit (Node.hasTree h) ?_
    cases Node.hasTree h with
    | scalar htag hs ht =>
      simp only [isTagged_eq_false htag, htag, hs, ht]
      exact .pure t
    | @sequence d _ _ _ htag hitems =>
      simp only [isTagged_eq_false htag]
      exact (Reads.mapM_zipIdx (hitems.imp fun _ _ h _ => ih d (Nat.lt_succ_self d) h _) 0).map _
    | @mapping d _ _ _ htag hentries =>
      simp only [isTagged_eq_false htag]
      refine (Reads.mapM (hentries.imp fun _ _ ⟨hkey, hvalue⟩ => ?_)).map _
      exact (ih d (Nat.lt_succ_self d) hkey _).bind
        ((ih d (Nat.lt_succ_self d) hvalue _).bind (.pure _))

theorem reads_string {s : String} (h : n.tree? depth = some (.string s)) (expected : String)
    (path : NodePath) : Reads (string expected path n) s := by
  refine .visit (Node.hasTree h) ?_
  cases Node.hasTree h with
  | scalar _ hs ht =>
    obtain rfl := Scalar.eq_of_toTree?_string hs ht
    exact .pure _

theorem reads_boolean {b : Bool} (h : n.tree? depth = some (.bool b)) (path : NodePath) :
    Reads (boolean path n) b := by
  refine .visit (Node.hasTree h) ?_
  cases Node.hasTree h with
  | @scalar _ p _ _ _ _ _ hs ht =>
    obtain ⟨rfl, hb⟩ := Scalar.plain_of_toTree?_bool hs ht
    have hstyle : isBooleanStyle .plain p.tag = true := by simp [isBooleanStyle]
    simp only [hstyle, hb, if_true]
    exact .pure b

theorem reads_entries {α : Type} {a : α} {trees : List (Tree × Tree)}
    {act : Nat → List (Node × Node) → NodeDecoder α} (h : n.tree? depth = some (.mapping trees))
    (hact : ∀ d es, depth = d + 1 → Node.EntryTrees d es trees → Reads (act d es) a)
    (expected : String) (path : NodePath) : Reads (entries expected path depth n act) a := by
  refine .visit (Node.hasTree h) ?_
  cases Node.hasTree h with
  | @scalar _ _ _ _ s _ _ _ ht => cases s <;> cases ht
  | mapping _ hentries => exact hact _ _ rfl hentries

theorem reads_value {v : Value} (h : n.tree? depth = some t) (hv : t.toValue? = some v)
    (path : NodePath) : Reads (value path n depth) v := by
  induction depth using Nat.strongRecOn generalizing n t v path with
  | ind depth ih =>
    rw [value]
    refine .visit (Node.hasTree h) ?_
    cases Node.hasTree h with
    | scalar htag hs ht =>
      simp only [isTagged_eq_false htag, htag, hs, ht, Option.bind_some, hv]
      exact .pure v
    | @sequence d _ items _ htag hitems =>
      obtain ⟨vs, hvs, rfl⟩ := Option.map_eq_some_iff.mp hv
      rw [Tree.toItems?_eq_mapM] at hvs
      simp only [isTagged_eq_false htag]
      have hread : List.Forall₂ (fun item v => ∀ i, Reads (value (.index i :: path) item d) v)
          items vs :=
        (forall₂_trans hitems (mapM_eq_some_iff.mp hvs)).imp
          fun _ _ ⟨t, ht, hv⟩ _ => ih d (Nat.lt_succ_self d) ht hv _
      exact (Reads.mapM_zipIdx hread 0).map _
    | @mapping d _ entries _ htag hentries =>
      obtain ⟨ms, hms, rfl⟩ := Option.map_eq_some_iff.mp hv
      simp only [isTagged_eq_false htag]
      refine Reads.bind (Reads.mapM_zipIdx ?_ 0) (.pure _)
      refine (forall₂_trans hentries (Tree.forall₂_of_toMembers? hms)).imp ?_
      rintro ⟨k, w⟩ ⟨key, v⟩ ⟨⟨_, t⟩, ⟨hk, hw⟩, rfl, hv⟩ i
      refine (reads_string hk _ path).bind ?_
      exact (ih d (Nat.lt_succ_self d) hw hv _).bind (.pure _)

theorem reads_mode {m : Mode}
    (h : n.tree? depth = some (.mapping [(.string "use_unsafe", .bool m.isFailFast)]))
    (path : NodePath) : Reads (mode path depth n) m := by
  refine reads_entries h (fun d es _ hes => ?_) _ path
  obtain _ | ⟨⟨hkey, hflag⟩, _ | _⟩ := hes
  have hoption : Reads (option path none _) (some m.isFailFast) :=
    (reads_string hkey _ path).bind ((reads_boolean hflag _).map some)
  have hmode : Reads (pure (Mode.ofBool m.isFailFast)) m := by cases m <;> exact .pure _
  exact Reads.bind (a := some m.isFailFast) (.foldlM_cons hoption (.pure _)) hmode

theorem reads_defaults {d : Defaults} (h : n.tree? depth = some (.ofValue d.toValue))
    (hd : d.toValue.WellFormed) (path : NodePath) : Reads (defaults path depth n) d := by
  obtain ⟨hascending, hmembers⟩ := hd
  refine reads_entries h (fun depth es _ hes => ?_) _ path
  have htree :=
    forall₂_trans hes (Tree.forall₂_of_toMembers? (Tree.toMembers?_ofMembers _ hmembers))
  refine Reads.bind (a := d.root) (.mapM (htree.imp ?_)) ?_
  · rintro ⟨k, w⟩ ⟨key, v⟩ ⟨⟨_, t⟩, ⟨hk, hw⟩, rfl, hv⟩
    exact (reads_string hk _ path).bind ((reads_value hw hv _).bind (.pure _))
  · rw [Members.ofList_eq_self hascending]
    exact .pure d

theorem reads_field {found : Entries FieldSpec} {entry : Node × Node} {name : String}
    {spec : FieldSpec} (hkey : entry.1.tree? depth = some (.string name))
    (hvalue : entry.2.tree? depth = some t) (hspec : FieldSpec.ofTree? t = some spec)
    (hnew : name ∉ found.keys) (path : NodePath) :
    Reads (field path depth found entry) (found ++ [(name, spec)]) := by
  rw [field]
  refine (reads_string hkey _ path).bind ((reads_tree hvalue _).bind ?_)
  simp only [hspec, List.contains_eq_mem, hnew, decide_false, Bool.false_eq_true, if_false]
  exact .pure _

theorem reads_fields {fs : Entries FieldSpec} {trees : List (Tree × Tree)}
    (h : n.tree? depth = some (.mapping trees)) (hspells : List.Forall₂ Spells trees fs)
    (hkeys : fs.keys.Nodup) (path : NodePath) : Reads (fields path depth n) fs := by
  refine reads_entries h (fun depth es _ hes => ?_) _ path
  suffices hfold : ∀ found : Entries FieldSpec, (Entries.keys (found ++ fs)).Nodup →
      Reads (es.foldlM (field path depth) found) (found ++ fs) from hfold [] hkeys
  have hboth := forall₂_trans hes hspells
  clear hes hspells h hkeys
  induction hboth with
  | nil =>
    intro found _
    rw [List.append_nil]
    exact .pure found
  | @cons entry f es fs hentry _ ih =>
    obtain ⟨⟨_, t⟩, ⟨hkey, hvalue⟩, rfl, hspec⟩ := hentry
    intro found hnodup
    have hnew : f.1 ∉ found.keys := by
      rw [Entries.keys_append] at hnodup
      exact fun hmem => (List.nodup_append.mp hnodup).2.2 _ hmem _ List.mem_cons_self rfl
    rw [List.append_cons] at hnodup ⊢
    exact .foldlM_cons (reads_field hkey hvalue hspec hnew path) (ih _ hnodup)

section Parts

variable {parts : Parts} {entry : Node × Node}

theorem reads_once {α : Type} {act : NodeDecoder α} {a : α} {found : Option α} (name : String)
    (hnew : found = none) (h : Reads act a) : Reads (once name found act) (some a) := by
  rw [once, hnew]
  exact h.map some

theorem reads_part_name {s : String} (hkey : entry.1.tree? depth = some (.string "name"))
    (hvalue : entry.2.tree? depth = some (.string s)) (hnew : parts.name = none) :
    Reads (part depth parts entry) { parts with name := some s } :=
  (reads_string hkey _ []).bind ((reads_once _ hnew (reads_string hvalue _ _)).bind (.pure _))

theorem reads_part_mode {m : Mode} (hkey : entry.1.tree? depth = some (.string "options"))
    (hvalue : entry.2.tree? depth =
      some (.mapping [(.string "use_unsafe", .bool m.isFailFast)])) (hnew : parts.mode = none) :
    Reads (part depth parts entry) { parts with mode := some m } :=
  (reads_string hkey _ []).bind ((reads_once _ hnew (reads_mode hvalue _)).bind (.pure _))

theorem reads_part_defaults {d : Defaults} (hd : d.toValue.WellFormed)
    (hkey : entry.1.tree? depth = some (.string "defaults"))
    (hvalue : entry.2.tree? depth = some (.ofValue d.toValue)) (hnew : parts.defaults = none) :
    Reads (part depth parts entry) { parts with defaults := some d } :=
  (reads_string hkey _ []).bind ((reads_once _ hnew (reads_defaults hvalue hd _)).bind (.pure _))

theorem reads_part_fields {fs : Entries FieldSpec} {trees : List (Tree × Tree)}
    (hspells : List.Forall₂ Spells trees fs) (hkeys : fs.keys.Nodup)
    (hkey : entry.1.tree? depth = some (.string "fields"))
    (hvalue : entry.2.tree? depth = some (.mapping trees)) (hnew : parts.fields = none) :
    Reads (part depth parts entry) { parts with fields := some fs } :=
  (reads_string hkey _ []).bind
    ((reads_once _ hnew (reads_fields hvalue hspells hkeys _)).bind (.pure _))

end Parts

/-- The entries of a well-formed document are decoded as the document. -/
theorem reads_document {d : Document} (hd : d.WellFormed) {es : List (Node × Node)}
    {trees : List (Tree × Tree)} (htree : d.toTree = .mapping trees)
    (hes : Node.EntryTrees depth es trees) : Reads (document depth es) d := by
  obtain ⟨name, mode, defaults, fields⟩ := d
  have hspells := spells_toEntries fields hd.fields.keys.2 hd.fields.literals
  have hkeys : (Entries.keys fields).Nodup := hd.fields.keys.1
  rw [Document.toTree] at htree
  obtain rfl := Tree.mapping.inj htree
  rw [document]
  by_cases hempty : defaults.root.isEmpty
  · obtain rfl : defaults = .empty := congrArg Defaults.mk (List.isEmpty_iff.mp hempty)
    rw [if_pos hempty] at hes
    obtain _ | ⟨⟨hname, hname'⟩, _ | ⟨⟨hmode, hmode'⟩, _ | ⟨⟨hfields, hfields'⟩, _ | _⟩⟩⟩ := hes
    refine Reads.bind (a := ⟨some name, some mode, none, some fields⟩) ?_ (.pure _)
    exact .foldlM_cons (reads_part_name hname hname' rfl) <|
      .foldlM_cons (reads_part_mode hmode hmode' rfl) <|
      .foldlM_cons (reads_part_fields hspells hkeys hfields hfields' rfl) (.pure _)
  · rw [if_neg hempty] at hes
    obtain _ | ⟨⟨hname, hname'⟩, _ | ⟨⟨hmode, hmode'⟩, _ | ⟨⟨hdefaults, hdefaults'⟩,
      _ | ⟨⟨hfields, hfields'⟩, _ | _⟩⟩⟩⟩ := hes
    refine Reads.bind (a := ⟨some name, some mode, some defaults, some fields⟩) ?_ (.pure _)
    exact .foldlM_cons (reads_part_name hname hname' rfl) <|
      .foldlM_cons (reads_part_mode hmode hmode' rfl) <|
      .foldlM_cons (reads_part_defaults hd.defaults hdefaults hdefaults' rfl) <|
      .foldlM_cons (reads_part_fields hspells hkeys hfields hfields' rfl) (.pure _)

theorem decodeRoot_of_reads {α : Type} {decoder : Node → NodeDecoder α} {root : Node} {a : α}
    (h : Reads (decoder root) a) : decodeRoot decoder root .whole = .ok a := by
  have hrun : ((decoder root).run ⟨root.anchored, 100 * root.eventCount⟩).run' 0 = .ok a := by
    rw [StateT.run', ReaderT.run, h]
    rfl
  rw [decodeRoot, hrun]
  rfl

end NodeDecoder

end Reshape
