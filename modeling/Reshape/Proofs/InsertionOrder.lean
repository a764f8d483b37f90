import Reshape.Proofs.Loading.Load

/-! # Insertion order

Entries that are put, erased and collected step by step have distinct keys, in the
order in which each was first put since it was last erased, and each key has the
value that was put last. The bindings of fields are collected in this way, so none
of the fields is dropped or moved.
-/

namespace Reshape

namespace Entries

variable {α : Type}

/-- A step in which entries are made. -/
inductive Edit (α : Type) where
  | put (key : String) (value : α)
  | erase (key : String)
  /-- All entries are replaced by those of a list. -/
  | collect (list : List (String × α))

namespace Edit

def apply : Edit α → Entries α → Entries α
  | put key value, entries => entries.put key value
  | erase key, entries => (entries.remove key).2
  | collect list, _ => ofList list

/-- What a step makes of the value of a key, unless it does not concern the key. -/
def value? (key : String) : Edit α → Option (Option α)
  | put k v => if k = key then some (some v) else none
  | erase k => if k = key then some none else none
  | collect list => some (list.reverse.lookup key)

def puts : Edit α → List String
  | put key _ => [key]
  | erase _ => []
  | collect list => list.map Prod.fst

def drops (key : String) : Edit α → Bool
  | put _ _ => false
  | erase k => key == k
  | collect _ => true

end Edit

/-- The entries after some steps, of which the first one finds none. -/
def run (edits : List (Edit α)) : Entries α :=
  edits.foldl (fun entries edit => edit.apply entries) []

/-- The value that the last step which concerns a key makes. -/
def latest? (key : String) (edits : List (Edit α)) : Option α :=
  (edits.reverse.findSome? (Edit.value? key)).join

/-- The keys that are put, at each place where no later step removes them again. -/
def standing : List (Edit α) → List String
  | [] => []
  | edit :: later => edit.puts.filter (fun key => !later.any (Edit.drops key)) ++ standing later

theorem run_concat (edits : List (Edit α)) (edit : Edit α) :
    run (edits ++ [edit]) = edit.apply (run edits) := by
  rw [run, run, List.foldl_append, List.foldl_cons, List.foldl_nil]

theorem latest?_concat (key : String) (edits : List (Edit α)) (edit : Edit α) :
    latest? key (edits ++ [edit]) = (edit.value? key).getD (latest? key edits) := by
  rw [latest?, latest?, List.reverse_append, List.reverse_singleton, List.singleton_append,
    List.findSome?_cons]
  cases edit.value? key <;> rfl

theorem standing_concat (edits : List (Edit α)) (edit : Edit α) :
    standing (edits ++ [edit]) =
      (standing edits).filter (fun key => !edit.drops key) ++ edit.puts := by
  induction edits with
  | nil => simp [standing]
  | cons first later ih =>
    rw [List.cons_append, standing, standing, ih, List.filter_append, List.filter_filter,
      List.append_assoc]
    simp [Bool.and_comm]

theorem eraseDups_concat (keys : List String) (key : String) :
    (keys ++ [key]).eraseDups =
      if key ∈ keys then keys.eraseDups else keys.eraseDups ++ [key] := by
  rw [List.eraseDups_append]
  split <;> rename_i h <;> simp [List.removeAll, h, List.eraseDups_cons]

theorem filter_eraseDups (p : String → Bool) (keys : List String) :
    (keys.filter p).eraseDups = keys.eraseDups.filter p := by
  induction keys using List.reverseRecOn with
  | nil => rfl
  | append_singleton keys key ih =>
    rw [List.filter_append, List.filter_singleton, eraseDups_concat]
    cases hp : p key with
    | true =>
      rw [cond_true, eraseDups_concat]
      by_cases hmem : key ∈ keys <;> simp [hmem, hp, ih]
    | false =>
      rw [cond_false, List.append_nil, ih]
      split <;> simp [hp]

theorem keys_ofList (list : List (String × α)) : keys (ofList list) = (keys list).eraseDups := by
  induction list using List.reverseRecOn with
  | nil => rfl
  | append_singleton list entry ih =>
    rw [ofList_concat, keys_put, keys_append, ih]
    simp only [List.mem_eraseDups]
    exact (eraseDups_concat _ _).symm

theorem get?_ofList (list : List (String × α)) (key : String) :
    get? key (ofList list) = list.reverse.lookup key := by
  induction list using List.reverseRecOn with
  | nil => rfl
  | append_singleton list entry ih =>
    obtain ⟨k, v⟩ := entry
    rw [ofList_concat, List.reverse_append, List.reverse_singleton, List.singleton_append]
    by_cases hk : k = key
    · rw [hk, get?_put_self, List.lookup_cons_self]
    · rw [get?_put_of_ne hk, ih, List.lookup_cons, beq_eq_false_iff_ne.mpr (Ne.symm hk)]

theorem Edit.nodup_keys_apply {entries : Entries α} (h : (keys entries).Nodup) (edit : Edit α) :
    (keys (edit.apply entries)).Nodup := by
  cases edit with
  | put key value => exact nodup_keys_put h
  | erase key => exact nodup_keys_erase h
  | collect list => exact nodup_keys_ofList list

theorem nodup_keys_run (edits : List (Edit α)) : (keys (run edits)).Nodup := by
  induction edits using List.reverseRecOn with
  | nil => exact List.nodup_nil
  | append_singleton edits edit ih =>
    rw [run_concat]
    exact edit.nodup_keys_apply ih

theorem keys_run (edits : List (Edit α)) : keys (run edits) = (standing edits).eraseDups := by
  -- What stands depends on the steps that follow, so steps are added at the end.
  induction edits using List.reverseRecOn with
  | nil => rfl
  | append_singleton edits edit ih =>
    rw [run_concat, standing_concat]
    cases edit with
    | put key value =>
      have hall : (standing edits).filter (fun k => !(Edit.put key value).drops k) =
          standing edits := List.filter_eq_self.mpr fun _ _ => rfl
      rw [Edit.apply, keys_put, ih, hall, Edit.puts, eraseDups_concat]
      simp only [List.mem_eraseDups]
    | erase key =>
      rw [Edit.apply, remove, keys_erase, (nodup_keys_run edits).erase_eq_filter, ih, Edit.puts,
        List.append_nil, filter_eraseDups]
      rfl
    | collect list =>
      have hnone : (standing edits).filter (fun k => !(Edit.collect list).drops k) = [] :=
        List.filter_eq_nil_iff.mpr fun _ _ => by simp [Edit.drops]
      rw [Edit.apply, keys_ofList, hnone, List.nil_append]
      rfl

theorem get?_run (edits : List (Edit α)) (key : String) :
    get? key (run edits) = latest? key edits := by
  induction edits using List.reverseRecOn with
  | nil => rfl
  | append_singleton edits edit ih =>
    rw [run_concat, latest?_concat, ← ih]
    cases edit with
    | put k value =>
      rw [Edit.apply, Edit.value?]
      split
      · rename_i hk
        rw [hk, get?_put_self, Option.getD_some]
      · rename_i hk
        rw [get?_put_of_ne hk, Option.getD_none]
    | erase k =>
      rw [Edit.apply, Edit.value?, remove]
      split
      · rename_i hk
        rw [hk, get?_erase_self (nodup_keys_run edits), Option.getD_some]
      · rename_i hk
        rw [get?_erase_of_ne hk, Option.getD_none]
    | collect list => exact get?_ofList list key

theorem filter_put (key : String) (value : α) (entries : Entries α) :
    ((put key value entries).filter fun entry => entry.1 ≠ key) =
      entries.filter fun entry => entry.1 ≠ key := by
  induction entries with
  | nil => simp [put]
  | cons entry rest ih =>
    rw [put]
    split
    · rename_i h
      simp [h]
    · rename_i h
      simpa [h] using ih

theorem filter_erase (key : String) (entries : Entries α) :
    ((erase key entries).filter fun entry => entry.1 ≠ key) =
      entries.filter fun entry => entry.1 ≠ key := by
  induction entries with
  | nil => rfl
  | cons entry rest ih =>
    rw [erase]
    split
    · rename_i h
      simp [h]
    · rename_i h
      simpa [h] using ih

/--
What steps make are entries of distinct keys, each with its latest value, in the
order in which the keys were put that stand. A key that is put again keeps its
place, and one that was erased before goes to the end. A step on one key leaves the
others as they are.
-/
structure InOrder (edits : List (Edit α)) : Prop where
  distinct : (keys (run edits)).Nodup
  order : keys (run edits) = (standing edits).eraseDups
  found : ∀ key, get? key (run edits) = latest? key edits
  removed : ∀ key, remove key (run edits) = (latest? key edits, run (edits ++ [.erase key]))
  replaced : ∀ key value, key ∈ keys (run edits) →
    keys (run (edits ++ [.put key value])) = keys (run edits)
  moved : ∀ key value, keys (run (edits ++ [.erase key, .put key value])) =
    (keys (run edits)).erase key ++ [key]
  others_put : ∀ key value, ((run (edits ++ [.put key value])).filter fun e => e.1 ≠ key) =
    (run edits).filter fun e => e.1 ≠ key
  others_erase : ∀ key, ((run (edits ++ [.erase key])).filter fun e => e.1 ≠ key) =
    (run edits).filter fun e => e.1 ≠ key

theorem inOrder (edits : List (Edit α)) : InOrder edits where
  distinct := nodup_keys_run edits
  order := keys_run edits
  found := get?_run edits
  removed key := by rw [run_concat, remove, get?_run]; rfl
  replaced key value h := by rw [run_concat, Edit.apply, keys_put, if_pos h]
  moved key value := by
    have hfresh : key ∉ (keys (run edits)).erase key := (nodup_keys_run edits).not_mem_erase
    rw [List.append_cons, run_concat, run_concat, Edit.apply, Edit.apply, remove, keys_put,
      keys_erase, if_neg hfresh]
  others_put key value := by rw [run_concat, Edit.apply, filter_put]
  others_erase key := by rw [run_concat, Edit.apply, remove, filter_erase]

end Entries

section Fields

open Entries

variable {env : Environment} {fields : List (String × FieldSpec)}
  {bindings : List (String × Binding)} {config : Configuration}

/-- A configuration has the binding of each field at its place, and no others. -/
def BindsEach (env : Environment) (config : Configuration) (fields : List (String × FieldSpec)) :
    Prop :=
  List.Forall₂ (fun entry field => entry.1 = field.1 ∧ field.2.bind env = .ok entry.2) config fields

theorem bindsEach_of_bindFields (h : bindFields env fields = .ok bindings) :
    BindsEach env bindings fields := by
  induction fields generalizing bindings with
  | nil =>
    obtain rfl := Except.ok.inj h
    exact .nil
  | cons field rest ih =>
    obtain ⟨key, spec⟩ := field
    obtain ⟨binding, hbinding, others, hothers, rfl⟩ := bindFields_cons_eq_ok_iff.mp h
    exact .cons ⟨rfl, hbinding⟩ (ih hothers)

theorem ofList_of_bindFields (hkeys : (keys fields).Nodup)
    (h : bindFields env fields = .ok bindings) : ofList bindings = bindings :=
  ofList_eq_self (keys_of_bindFields h ▸ hkeys)

theorem exists_bind_tree_iff :
    (∃ config, (FieldSpec.tree fields).bind env = .ok (.tree config)) ↔
      ∀ field ∈ fields, ∃ binding, field.2.bind env = .ok binding := by
  have hfields : (∃ bindings, bindFields env fields = .ok bindings) ↔
      ∀ field ∈ fields, ∃ binding, field.2.bind env = .ok binding := by
    induction fields with
    | nil => simp [bindFields]
    | cons field rest ih =>
      obtain ⟨key, spec⟩ := field
      rw [List.forall_mem_cons, ← ih]
      simp only [bindFields_cons_eq_ok_iff]
      constructor
      · rintro ⟨_, binding, hbinding, others, hothers, -⟩
        exact ⟨⟨binding, hbinding⟩, others, hothers⟩
      · rintro ⟨⟨binding, hbinding⟩, others, hothers⟩
        exact ⟨_, binding, hbinding, others, hothers, rfl⟩
  rw [← hfields]
  simp [bind_tree_eq_ok_iff]

theorem bindsEach_of_bind (hkeys : (keys fields).Nodup)
    (h : (FieldSpec.tree fields).bind env = .ok (.tree config)) :
    keys config = keys fields ∧ BindsEach env config fields := by
  obtain ⟨bindings, hbindings, hconfig⟩ := bind_tree_eq_ok_iff.mp h
  rw [ofList_of_bindFields hkeys hbindings] at hconfig
  obtain rfl := Binding.tree.inj hconfig
  exact ⟨keys_of_bindFields hbindings, bindsEach_of_bindFields hbindings⟩

theorem Loader.Sound.bindsEach_of_load {l : Loader} {d : Document} {id : MapperId} (hl : l.Sound)
    (hkeys : (keys d.fields).Nodup) (h : (l.load d).1 = .ok id) :
    keys ((l.load d).2.store.mapper id).config = keys d.fields ∧
      BindsEach l.toEnvironment ((l.load d).2.store.mapper id).config d.fields := by
  obtain ⟨rfl, bindings, -, hbindings, -, -⟩ := hl.load_eq_ok (Prod.ext h rfl)
  have hcompiled := (hl.reachable_draft hbindings).coherent.advances_compile size_lt_size_draft
  have hconfig : ((l.load d).2.store.mapper l.store.size).config = bindings := by
    rw [load_of_bindFields hbindings, Store.after, Store.config_eq_of_forget hcompiled.forget,
      mapper_draft]
    exact ofList_of_bindFields hkeys hbindings
  rw [hconfig]
  exact ⟨keys_of_bindFields hbindings, bindsEach_of_bindFields hbindings⟩

end Fields

/--
Whatever steps have made them, entries are an insertion-ordered map. Fields with
distinct keys have bindings in a configuration if each one has a binding, and then
the configuration, which may be that of a loaded mapper, has these in their order.
-/
theorem insertion_order_kept :
    (∀ {α : Type} (edits : List (Entries.Edit α)), Entries.InOrder edits) ∧
    (∀ env (fields : List (String × FieldSpec)), (Entries.keys fields).Nodup →
      ((∃ config, (FieldSpec.tree fields).bind env = .ok (.tree config)) ↔
        ∀ field ∈ fields, ∃ binding, field.2.bind env = .ok binding) ∧
      ∀ config, (FieldSpec.tree fields).bind env = .ok (.tree config) →
        Entries.keys config = Entries.keys fields ∧ BindsEach env config fields) ∧
    ∀ (l : Loader) (d : Document) (id : MapperId), l.Sound → (Entries.keys d.fields).Nodup →
      (l.load d).1 = .ok id →
        Entries.keys ((l.load d).2.store.mapper id).config = Entries.keys d.fields ∧
          BindsEach l.toEnvironment ((l.load d).2.store.mapper id).config d.fields :=
  ⟨Entries.inOrder, fun _ _ hkeys => ⟨exists_bind_tree_iff, fun _ => bindsEach_of_bind hkeys⟩,
    fun _ _ _ hl => hl.bindsEach_of_load⟩

/-- The field `a` is erased and put again, so it goes to the end, and `b` keeps its place. -/
theorem insertion_order_kept_reinserted :
    let edits : List (Entries.Edit FieldSpec) :=
      [.collect [("a", .path "x"), ("b", .path "y")], .erase "a", .put "c" (.path "z"),
        .put "b" (.rule "w" true), .put "a" (.path "x")]
    let l := Loader.new .empty
    let d : Document := ⟨"m", .safe, .empty, Entries.run edits⟩
    Entries.keys (Entries.run edits) = ["b", "c", "a"] ∧
      (l.load d).1 = .ok 0 ∧
      Entries.keys ((l.load d).2.store.mapper 0).config = ["b", "c", "a"] ∧
      ∃ config, (FieldSpec.tree (Entries.run edits)).bind l.toEnvironment = .ok (.tree config) ∧
        Entries.keys config = ["b", "c", "a"] := by
  intro edits l d
  obtain ⟨hmap, htree, hload⟩ := insertion_order_kept
  have hl : l.Sound := ⟨.empty, fun name id h => nomatch h⟩
  have hkeys := (hmap edits).distinct
  have hloaded : (l.load d).1 = .ok 0 := by decide +kernel
  obtain ⟨hbinds, hordered⟩ := htree l.toEnvironment (Entries.run edits) hkeys
  have hrun : Entries.run edits = [("b", .rule "w" true), ("c", .path "z"), ("a", .path "x")] := rfl
  obtain ⟨config, hconfig⟩ := hbinds.mpr (by simp [hrun, FieldSpec.bind])
  exact ⟨rfl, hloaded, (hload l d 0 hl hkeys hloaded).1, config, hconfig,
    (hordered config hconfig).1⟩

end Reshape
