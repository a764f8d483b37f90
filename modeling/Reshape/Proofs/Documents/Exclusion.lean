import Reshape.Document.Decode
import Reshape.Proofs.Documents.Declarations

/-! # Exclusive forms

An object that fits one form of a field has a key that is foreign to all others. So
the order in which forms are tried makes no difference to it, and an object is read
as the field that it declares.
-/

namespace Reshape

open Reshape.Tree

namespace FieldSpec

open Form

def pathOf? (t : Tree) : Option FieldSpec := (string? t).map .path

def treeOf? : Tree → Option FieldSpec
  | .mapping entries => (onlyFields? entries).map .tree
  | .sequence items => (onlyItem? items).map .tree
  | _ => none

def forms : List (Tree → Option FieldSpec) := [pathOf?, ruleOf?, callOf?, mapperOf?, treeOf?]

theorem orElse_eq_findSome? (a? b? c? d? : Option FieldSpec) :
    ((a? <|> b? <|> c?) <|> d?) = [a?, b?, c?, d?].findSome? id := by
  cases a? <;> cases b? <;> cases c? <;> cases d? <;> rfl

theorem ofTree?_eq_findSome? (t : Tree) : ofTree? t = forms.findSome? fun form => form t := by
  cases t with
  | string text => rfl
  | sequence items =>
    rw [ofTree?]
    exact orElse_eq_findSome? _ _ _ _
  | mapping entries =>
    rw [ofTree?]
    exact orElse_eq_findSome? _ _ _ _
  | _ => rfl

section Objects

variable {ms : Members} {spec : FieldSpec}

theorem ruleOf?_object_iff (hms : (Value.object ms).WellFormed) :
    ruleOf? (ofValue (.object ms)) = some spec ↔
      OnlyKeys ["path", "flatten"] ms ∧ ∃ text, ms.lookup "path" = some (.string text) ∧
        ∃ flatten, Given false Value.IsFlag (ms.lookup "flatten") flatten ∧
          .rule text flatten = spec :=
  record_eq_some_iff (by decide) hms.1.nodup_keys fun _ _ _ => bool?_ofValue_iff

theorem callOf?_object_iff (hms : (Value.object ms).WellFormed) :
    callOf? (ofValue (.object ms)) = some spec ↔
      OnlyKeys ["call", "args"] ms ∧ ∃ target, ms.lookup "call" = some (.string target) ∧
        ∃ args, Given [] Value.AreArguments (ms.lookup "args") args ∧ .call target args = spec :=
  record_eq_some_iff (by decide) hms.1.nodup_keys fun _ hv _ =>
    arguments?_ofValue_iff (wellFormed_of_lookup hms.2 hv)

theorem mapperOf?_object_iff (hms : (Value.object ms).WellFormed) :
    mapperOf? (ofValue (.object ms)) = some spec ↔
      OnlyKeys ["mapper", "source"] ms ∧ ∃ name, ms.lookup "mapper" = some (.string name) ∧
        ∃ source, Given none Value.IsSource (ms.lookup "source") source ∧
          .mapper name source = spec :=
  record_eq_some_iff (by decide) hms.1.nodup_keys fun _ _ _ => optionalString?_ofValue_iff

theorem treeOf?_object_iff :
    treeOf? (ofValue (.object ms)) = some spec ↔
      ∃ inner, ms = [("fields", .object inner)] ∧
        ∃ fields, ofEntries? (ofMembers inner) = some fields ∧ .tree fields = spec := by
  constructor
  · intro h
    obtain ⟨fields, hfields, rfl⟩ := Option.map_eq_some_iff.mp h
    rcases ms with _ | ⟨⟨key, v⟩, _ | ⟨_, _⟩⟩
    · cases hfields
    · cases v with
      | object inner =>
        by_cases hkey : key = "fields"
        · subst hkey
          exact ⟨inner, rfl, fields, hfields, rfl⟩
        · have hother : FieldKey.ofTree? ["fields"] (.string key) = some .other :=
            FieldKey.ofTree?_of_not_mem (by simpa using hkey)
          simp [ofMembers, ofValue, onlyFields?, hother] at hfields
      | _ => simp [ofMembers, ofValue, onlyFields?] at hfields
    · simp [ofMembers, onlyFields?] at hfields
  · rintro ⟨inner, rfl, fields, hfields, rfl⟩
    exact congrArg (Option.map FieldSpec.tree) hfields

/-- An object has a key, and no others than it and these. -/
structure Marked (key : String) (others : List String) (ms : Members) : Prop where
  only : OnlyKeys (key :: others) ms
  present : key ∈ Entries.keys ms

theorem marked_of_record {key : String} {others : List String} {P : String → Prop}
    (h : OnlyKeys (key :: others) ms ∧ ∃ text, ms.lookup key = some (.string text) ∧ P text) :
    Marked key others ms := by
  obtain ⟨honly, text, htext, -⟩ := h
  exact ⟨honly, Members.mem_keys_of_lookup htext⟩

theorem marked_of_treeOf? (h : treeOf? (ofValue (.object ms)) = some spec) :
    Marked "fields" [] ms := by
  obtain ⟨inner, rfl, -⟩ := treeOf?_object_iff.mp h
  exact ⟨fun _ hkey => hkey, List.mem_cons_self⟩

theorem none_or_none_of_marked {f? g? : Option FieldSpec} {key other : String}
    {names others : List String} (hf : ∀ spec, f? = some spec → Marked key names ms)
    (hg : ∀ spec, g? = some spec → Marked other others ms) (hother : other ∉ key :: names) :
    f? = none ∨ g? = none := by
  cases f? with
  | none => exact .inl rfl
  | some spec =>
    refine .inr (Option.eq_none_iff_forall_ne_some.mpr fun spec' h => hother ?_)
    exact (hf spec rfl).only other (hg spec' h).present

/-- An object fits at most one of the forms. -/
theorem forms_exclusive (hms : (Value.object ms).WellFormed) :
    forms.Pairwise fun f g =>
      f (ofValue (.object ms)) = none ∨ g (ofValue (.object ms)) = none := by
  have hrule := fun spec h => marked_of_record ((@ruleOf?_object_iff ms spec hms).mp h)
  have hcall := fun spec h => marked_of_record ((@callOf?_object_iff ms spec hms).mp h)
  have hmapper := fun spec h => marked_of_record ((@mapperOf?_object_iff ms spec hms).mp h)
  have htree := fun spec => @marked_of_treeOf? ms spec
  simp only [forms, List.pairwise_cons, List.forall_mem_cons, List.not_mem_nil, false_imp_iff,
    implies_true, List.Pairwise.nil, and_true]
  refine ⟨⟨.inl rfl, .inl rfl, .inl rfl, .inl rfl⟩, ⟨?_, ?_, ?_⟩, ⟨?_, ?_⟩, ?_⟩
  · exact none_or_none_of_marked hrule hcall (by decide)
  · exact none_or_none_of_marked hrule hmapper (by decide)
  · exact none_or_none_of_marked hrule htree (by decide)
  · exact none_or_none_of_marked hcall hmapper (by decide)
  · exact none_or_none_of_marked hcall htree (by decide)
  · exact none_or_none_of_marked hmapper htree (by decide)

end Objects

section Order

variable {α β : Type} {f : α → Option β} {items others : List α} {b : β}

theorem findSome?_eq_some_iff_of_exclusive (h : items.Pairwise fun x y => f x = none ∨ f y = none) :
    items.findSome? f = some b ↔ ∃ a ∈ items, f a = some b := by
  refine ⟨List.exists_of_findSome?_eq_some, ?_⟩
  rintro ⟨a, ha, hb⟩
  induction items with
  | nil => cases ha
  | cons x rest ih =>
    obtain ⟨hx, hrest⟩ := List.pairwise_cons.mp h
    rw [List.findSome?_cons]
    rcases List.mem_cons.mp ha with rfl | ha
    · rw [hb]
    · have hnone : f x = none := (hx a ha).resolve_right fun hfa => by rw [hfa] at hb; cases hb
      rw [hnone]
      exact ih hrest ha

theorem findSome?_eq_of_perm (h : items.Pairwise fun x y => f x = none ∨ f y = none)
    (hperm : others.Perm items) : others.findSome? f = items.findSome? f := by
  have h' : others.Pairwise fun x y => f x = none ∨ f y = none :=
    hperm.symm.pairwise h fun hxy => hxy.symm
  refine Option.ext fun b => ?_
  rw [findSome?_eq_some_iff_of_exclusive h, findSome?_eq_some_iff_of_exclusive h']
  simp only [hperm.mem_iff]

end Order

section Recursion

variable {ms : Members} {items : List Value} {spec : FieldSpec}

theorem ofTree?_object_iff (hms : (Value.object ms).WellFormed)
    (hinner : ∀ inner, ms = [("fields", .object inner)] →
      ∀ fields, ofEntries? (ofMembers inner) = some fields ↔ DeclareFields inner fields) :
    ofTree? (ofValue (.object ms)) = some spec ↔ Declares (.object ms) spec := by
  rw [ofTree?_eq_findSome?, findSome?_eq_some_iff_of_exclusive (forms_exclusive hms)]
  have hpath : pathOf? (ofValue (.object ms)) = none := rfl
  simp only [forms, List.exists_mem_cons_iff, List.not_mem_nil, false_and, exists_false, or_false,
    hpath, reduceCtorEq, false_or, ruleOf?_object_iff hms, callOf?_object_iff hms,
    mapperOf?_object_iff hms, treeOf?_object_iff]
  constructor
  · rintro (⟨honly, text, htext, flatten, hflatten, rfl⟩ |
      ⟨honly, target, htarget, args, hargs, rfl⟩ | ⟨honly, name, hname, source, hsource, rfl⟩ |
      ⟨inner, rfl, fields, hfields, rfl⟩)
    · exact .rule honly htext hflatten
    · exact .call honly htarget hargs
    · exact .mapper honly hname hsource
    · exact .tree ((hinner inner rfl fields).mp hfields)
  · intro h
    cases h with
    | rule honly htext hflatten => exact .inl ⟨honly, _, htext, _, hflatten, rfl⟩
    | call honly htarget hargs => exact .inr (.inl ⟨honly, _, htarget, _, hargs, rfl⟩)
    | mapper honly hname hsource => exact .inr (.inr (.inl ⟨honly, _, hname, _, hsource, rfl⟩))
    | tree hfields => exact .inr (.inr (.inr ⟨_, rfl, _, (hinner _ rfl _).mpr hfields, rfl⟩))

theorem onlyItem?_cons_cons (t u : Tree) (rest : List Tree) :
    onlyItem? (t :: u :: rest) = none := by
  cases t <;> rfl

theorem record_items_eq_map {α : Type} {key other : String} {make : String → α → FieldSpec}
    {default : α} {read? : Tree → Option α} (text : String) (t : Tree) :
    (do
      let fields ← record? [key, other] (.sequence [.string text, t])
      return make (← string? (← fields.lookup 0)) (← orElse default read? (fields.lookup 1))) =
        (read? t).map (make text) := by
  rw [Option.map_eq_bind]
  rfl

theorem ofTree?_text_and (text : String) (t : Tree) :
    ofTree? (.sequence [.string text, t]) =
      (((bool? t).map (.rule text) <|> (arguments? t).map (.call text)) <|>
        (optionalString? t).map (.mapper text)) := by
  have hrule : ruleOf? (.sequence [.string text, t]) = (bool? t).map (.rule text) :=
    record_items_eq_map text t
  have hcall : callOf? (.sequence [.string text, t]) = (arguments? t).map (.call text) :=
    record_items_eq_map text t
  have hmapper : mapperOf? (.sequence [.string text, t]) =
      (optionalString? t).map (.mapper text) :=
    record_items_eq_map text t
  rw [ofTree?, hrule, hcall, hmapper]
  simp [onlyItem?_cons_cons, Option.or_assoc]

theorem ofTree?_array_iff (hitems : (Value.array items).WellFormed)
    (hinner : ∀ inner, items = [.object inner] →
      ∀ fields, ofEntries? (ofMembers inner) = some fields ↔ DeclareFields inner fields) :
    ofTree? (ofValue (.array items)) = some spec ↔ Declares (.array items) spec := by
  constructor
  · intro h
    rcases items with _ | ⟨v, _ | ⟨w, _ | ⟨_, _⟩⟩⟩
    · cases h
    · cases v with
      | string text => exact Option.some.inj h ▸ .rulePath text
      | object inner =>
        obtain ⟨fields, hfields, rfl⟩ := Option.map_eq_some_iff.mp h
        exact .treeItem ((hinner inner rfl fields).mp hfields)
      | _ => cases h
    · cases v with
      | string text =>
        rw [ofValue, ofItems, ofItems, ofItems, ofValue, ofTree?_text_and] at h
        cases hflag : bool? (ofValue w) with
        | some flag =>
          rw [hflag] at h
          obtain rfl := bool?_ofValue_iff.mp hflag
          exact Option.some.inj h ▸ .ruleItems text flag
        | none =>
          cases hargs : arguments? (ofValue w) with
          | some args =>
            rw [hflag, hargs] at h
            exact Option.some.inj h ▸ .callItems ((arguments?_ofValue_iff hitems.2.1).mp hargs)
          | none =>
            rw [hflag, hargs] at h
            obtain ⟨source, hsource, rfl⟩ := Option.map_eq_some_iff.mp h
            exact .mapperItems (optionalString?_ofValue_iff.mp hsource)
      | _ => cases h
    · rw [ofValue, ofItems, ofItems, ofItems, ofTree?, onlyItem?_cons_cons] at h
      simp [ruleOf?, callOf?, mapperOf?, record?, positions?] at h
  · intro h
    cases h with
    | rulePath text => rfl
    | ruleItems text flatten => rfl
    | callItems hargs =>
      have hread := (arguments?_ofValue_iff hitems.2.1).mpr hargs
      obtain ⟨_⟩ := hargs
      rw [ofValue, ofItems, ofItems, ofItems, ofValue, ofTree?_text_and, hread]
      rfl
    | mapperItems hsource => cases hsource <;> rfl
    | treeItem hfields =>
      exact congrArg (Option.map FieldSpec.tree) ((hinner _ rfl _).mpr hfields)

theorem keys_of_declareFields {fields : List (String × FieldSpec)} (h : DeclareFields ms fields) :
    Entries.keys fields = Entries.keys ms := by
  induction ms generalizing fields with
  | nil =>
    obtain _ | _ := h
    rfl
  | cons member rest ih =>
    obtain _ | ⟨-, hrest⟩ := h
    rw [Entries.keys_cons, Entries.keys_cons, ih hrest]

theorem ofEntries?_cons_eq_some_iff {key : String} {t : Tree} {rest : List (Tree × Tree)}
    {fields : List (String × FieldSpec)} :
    ofEntries? ((.string key, t) :: rest) = some fields ↔
      ∃ spec, ofTree? t = some spec ∧ ∃ others, ofEntries? rest = some others ∧
        key ∉ Entries.keys others ∧ (key, spec) :: others = fields := by
  simp [ofEntries?, string?, Option.bind_eq_some_iff, Entries.keys]

mutual

/-- A value is read as the field that it declares, and as none if it declares none. -/
theorem ofTree?_iff_declares (v : Value) (hv : v.WellFormed) {spec : FieldSpec} :
    ofTree? (ofValue v) = some spec ↔ Declares v spec := by
  match v with
  | .null | .bool _ | .number _ => exact ⟨nofun, nofun⟩
  | .string text =>
    constructor
    · exact fun h => Option.some.inj h ▸ .path text
    · rintro ⟨⟩
      rfl
  | .array items =>
    refine ofTree?_array_iff hv fun inner hitems fields => ?_
    have hwf : (Value.object inner).WellFormed := by
      subst hitems
      exact hv.1
    exact ofEntries?_iff_declareFields inner hwf.2 hwf.1.nodup_keys
  | .object ms =>
    refine ofTree?_object_iff hv fun inner hms fields => ?_
    have hwf : (Value.object inner).WellFormed := by
      subst hms
      exact hv.2.1
    exact ofEntries?_iff_declareFields inner hwf.2 hwf.1.nodup_keys
termination_by sizeOf v
decreasing_by all_goals (subst_vars; simp +arith)

theorem ofEntries?_iff_declareFields (ms : Members) (hms : WellFormedMembers ms)
    (hkeys : (Entries.keys ms).Nodup) {fields : List (String × FieldSpec)} :
    ofEntries? (ofMembers ms) = some fields ↔ DeclareFields ms fields := by
  match ms with
  | [] =>
    constructor
    · exact fun h => Option.some.inj h ▸ .nil
    · rintro ⟨⟩
      rfl
  | (key, v) :: rest =>
    obtain ⟨hfresh, hrest⟩ := List.nodup_cons.mp hkeys
    rw [ofMembers, ofEntries?_cons_eq_some_iff]
    constructor
    · rintro ⟨spec, hspec, others, hothers, -, rfl⟩
      exact .cons ((ofTree?_iff_declares v hms.1).mp hspec)
        ((ofEntries?_iff_declareFields rest hms.2 hrest).mp hothers)
    · rintro (_ | ⟨hspec, hothers⟩)
      refine ⟨_, (ofTree?_iff_declares v hms.1).mpr hspec, _,
        (ofEntries?_iff_declareFields rest hms.2 hrest).mpr hothers, ?_, rfl⟩
      rw [keys_of_declareFields hothers]
      exact hfresh
termination_by sizeOf ms

end

end Recursion

section Decoding

variable {ms : Members} {spec : FieldSpec} {key : String} {others : List String}

def declaringKeys : List String := ["path", "call", "mapper", "fields"]

/-- The key by which an object declares this field; a mere path is declared by a text. -/
def declaringKey? : FieldSpec → Option String
  | path _ => none
  | rule _ _ => some "path"
  | call _ _ => some "call"
  | mapper _ _ => some "mapper"
  | tree _ => some "fields"

theorem Marked.mem_keys_iff (h : Marked key others ms)
    (hothers : ∀ other ∈ others, other ∉ declaringKeys) {other : String}
    (hother : other ∈ declaringKeys) : other ∈ Entries.keys ms ↔ other = key := by
  constructor
  · intro hmem
    exact (List.mem_cons.mp (h.only other hmem)).resolve_right fun hin => hothers other hin hother
  · rintro rfl
    exact h.present

/-- Of the declaring keys, an object that declares a field has the one of the field only. -/
theorem exists_declaringKey (h : Declares (.object ms) spec) :
    ∃ key, spec.declaringKey? = some key ∧
      ∀ other ∈ declaringKeys, other ∈ Entries.keys ms ↔ other = key := by
  have hmarked : ∃ key others, spec.declaringKey? = some key ∧ Marked key others ms ∧
      ∀ other ∈ others, other ∉ declaringKeys := by
    cases h with
    | rule honly htext => exact ⟨_, _, rfl, ⟨honly, Members.mem_keys_of_lookup htext⟩, by decide⟩
    | call honly htext => exact ⟨_, _, rfl, ⟨honly, Members.mem_keys_of_lookup htext⟩, by decide⟩
    | mapper honly htext => exact ⟨_, _, rfl, ⟨honly, Members.mem_keys_of_lookup htext⟩, by decide⟩
    | tree => exact ⟨_, [], rfl, ⟨fun _ hkey => hkey, List.mem_cons_self⟩, by decide⟩
  obtain ⟨key, others, hkey, hmarked, hothers⟩ := hmarked
  exact ⟨key, hkey, fun _ => hmarked.mem_keys_iff hothers⟩

theorem decode_eq_ok_iff {v : Value} : decode v = .ok spec ↔ ofTree? (ofValue v) = some spec := by
  rw [decode]
  cases ofTree? (ofValue v) <;> simp

theorem ascending_of_declares {fields : List (String × FieldSpec)}
    (hms : (Value.object ms).WellFormed) (h : Declares (.object ms) (.tree fields)) :
    Entries.Ascending fields ∧ ∃ inner, ms = [("fields", .object inner)] ∧
      Entries.keys fields = Entries.keys inner := by
  cases h with
  | @tree inner _ hfields =>
    have hkeys := keys_of_declareFields hfields
    exact ⟨Entries.Ascending.of_keys_eq hms.2.1.1 hkeys, inner, rfl, hkeys⟩

/--
An object is decoded as the field that it declares. It has no other declaring key
than that of the field, and it fits no other form, so that the forms may be tried in
any order. The fields of a tree are those of an object, by ascending key.
-/
theorem forms_unambiguous (hms : (Value.object ms).WellFormed) :
    (∀ spec, decode (.object ms) = .ok spec ↔ Declares (.object ms) spec) ∧
    (∀ spec, decode (.object ms) = .ok spec → ∃ key, spec.declaringKey? = some key ∧
      ∀ other ∈ declaringKeys, other ∈ Entries.keys ms ↔ other = key) ∧
    (forms.Pairwise fun f g =>
      f (ofValue (.object ms)) = none ∨ g (ofValue (.object ms)) = none) ∧
    (∀ tried : List (Tree → Option FieldSpec), tried.Perm forms →
      (decode (.object ms)).toOption = tried.findSome? fun form => form (ofValue (.object ms))) ∧
    ∀ fields, decode (.object ms) = .ok (.tree fields) → Entries.Ascending fields ∧
      ∃ inner, ms = [("fields", .object inner)] ∧ Entries.keys fields = Entries.keys inner := by
  have hdecode : ∀ spec, decode (.object ms) = .ok spec ↔ Declares (.object ms) spec := fun _ =>
    decode_eq_ok_iff.trans (ofTree?_iff_declares _ hms)
  refine ⟨hdecode, fun spec h => exists_declaringKey ((hdecode spec).mp h), forms_exclusive hms,
    fun tried htried => ?_, fun fields h => ascending_of_declares hms ((hdecode _).mp h)⟩
  rw [findSome?_eq_of_perm (forms_exclusive hms) htried, ← ofTree?_eq_findSome?, decode]
  cases ofTree? (ofValue (.object ms)) <;> rfl

theorem forms_unambiguous_nested :
    let literal : Value := .object [("note", .null), ("value", .int 7)]
    let call : Value := .object [("args", .array [literal]), ("call", .string "x.f")]
    let inner : Members := [("a", call), ("b", .array [.string "p", .bool true])]
    let fields := [("a", .call "x.f" [.literal (.int 7)]), ("b", .rule "p" true)]
    (Value.object [("fields", .object inner)]).WellFormed ∧
      decode (.object [("fields", .object inner)]) = .ok (.tree fields) ∧
      Entries.Ascending fields ∧
      (forms.reverse.findSome? fun form => form (ofValue (.object [("fields", .object inner)]))) =
        some (.tree fields) := by
  intro literal call inner fields
  have hliteral : literal.WellFormed := ⟨by decide +kernel, trivial, trivial, trivial⟩
  have hcall : call.WellFormed := ⟨by decide +kernel, ⟨hliteral, trivial⟩, trivial, trivial⟩
  have hinner : (Value.object inner).WellFormed :=
    ⟨by decide +kernel, hcall, ⟨trivial, trivial, trivial⟩, trivial⟩
  have hms : (Value.object [("fields", .object inner)]).WellFormed :=
    ⟨by decide +kernel, hinner, trivial⟩
  have hdecoded : decode (.object [("fields", .object inner)]) = .ok (.tree fields) := rfl
  obtain ⟨-, -, -, horder, htree⟩ := forms_unambiguous hms
  refine ⟨hms, hdecoded, (htree fields hdecoded).1, ?_⟩
  rw [← horder _ (List.reverse_perm forms), hdecoded]
  rfl

end Decoding

end FieldSpec

end Reshape
