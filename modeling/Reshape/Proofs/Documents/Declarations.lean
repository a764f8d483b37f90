import Reshape.Proofs.Documents.Forms
import Reshape.Proofs.Results

/-! # What declares a field

A text declares a path, and an object declares a field by one of four keys, with
members of a kind each. A list may do so by position. The members of an object are
read by their names, and a foreign key rules a record out.
-/

namespace Reshape

open Reshape.Tree

section Declarations

/-- What a member stands for, or something else when it is left out. -/
def Given {α : Type} (default : α) (Reads : Value → α → Prop) : Option Value → α → Prop
  | none, a => a = default
  | some v, a => Reads v a

def OnlyKeys (names : List String) (ms : Members) : Prop := ∀ key ∈ Entries.keys ms, key ∈ names

namespace Value

def IsFlag (v : Value) (flag : Bool) : Prop := v = .bool flag

/-- The path of a source is a text, and null stands for none. -/
inductive IsSource : Value → Option String → Prop where
  | null : IsSource .null none
  | text (path : String) : IsSource (.string path) (some path)

/-- An argument is a path, or an object with a value, whatever else it has. -/
inductive IsArgument : Value → Argument → Prop where
  | path (text : String) : IsArgument (.string text) (.path text)
  | literal {ms : Members} {v : Value} (h : ms.lookup "value" = some v) :
      IsArgument (.object ms) (.literal v)

inductive AreArguments : Value → List Argument → Prop where
  | list {items : List Value} {args : List Argument} (h : List.Forall₂ IsArgument items args) :
      AreArguments (.array items) args

end Value

open Value

mutual

/-- A value declares a field: by its text, by the members of an object, or by position. -/
inductive Declares : Value → FieldSpec → Prop where
  | path (text : String) : Declares (.string text) (.path text)
  | rule {ms : Members} {text : String} {flatten : Bool} (hkeys : OnlyKeys ["path", "flatten"] ms)
      (hpath : ms.lookup "path" = some (.string text))
      (hflatten : Given false IsFlag (ms.lookup "flatten") flatten) :
      Declares (.object ms) (.rule text flatten)
  | call {ms : Members} {target : String} {args : List Argument}
      (hkeys : OnlyKeys ["call", "args"] ms) (hcall : ms.lookup "call" = some (.string target))
      (hargs : Given [] AreArguments (ms.lookup "args") args) :
      Declares (.object ms) (.call target args)
  | mapper {ms : Members} {name : String} {source : Option String}
      (hkeys : OnlyKeys ["mapper", "source"] ms)
      (hmapper : ms.lookup "mapper" = some (.string name))
      (hsource : Given none IsSource (ms.lookup "source") source) :
      Declares (.object ms) (.mapper name source)
  | tree {ms : Members} {fields : List (String × FieldSpec)} (h : DeclareFields ms fields) :
      Declares (.object [("fields", .object ms)]) (.tree fields)
  | rulePath (text : String) : Declares (.array [.string text]) (.rule text false)
  | ruleItems (text : String) (flatten : Bool) :
      Declares (.array [.string text, .bool flatten]) (.rule text flatten)
  | callItems {target : String} {v : Value} {args : List Argument} (h : AreArguments v args) :
      Declares (.array [.string target, v]) (.call target args)
  | mapperItems {name : String} {v : Value} {source : Option String} (h : IsSource v source) :
      Declares (.array [.string name, v]) (.mapper name source)
  | treeItem {ms : Members} {fields : List (String × FieldSpec)} (h : DeclareFields ms fields) :
      Declares (.array [.object ms]) (.tree fields)

inductive DeclareFields : Members → List (String × FieldSpec) → Prop where
  | nil : DeclareFields [] []
  | cons {key : String} {v : Value} {spec : FieldSpec} {ms : Members}
      {fields : List (String × FieldSpec)} (h : Declares v spec) (hrest : DeclareFields ms fields) :
      DeclareFields ((key, v) :: ms) ((key, spec) :: fields)

end

end Declarations

section Records

variable {names : List String} {ms : Members} {key : String}

theorem FieldKey.ofTree?_getElem (hnames : names.Nodup) {n : Nat} (hn : n < names.length) :
    FieldKey.ofTree? names (.string names[n]) = some (.field n) := by
  have hidx : names.findIdx? (· == names[n]) = some n := by
    refine List.findIdx?_eq_some_iff_getElem.mpr ⟨hn, beq_self_eq_true _, fun m hm => ?_⟩
    simpa using fun heq => hm.ne ((hnames.getElem_inj_iff).mp heq)
  rw [FieldKey.ofTree?, hidx]

theorem FieldKey.ofTree?_of_not_mem (h : key ∉ names) :
    FieldKey.ofTree? names (.string key) = some .other := by
  have hidx : names.findIdx? (· == key) = none := by
    refine List.findIdx?_eq_none_iff.mpr fun name hname => beq_eq_false_iff_ne.mpr ?_
    rintro rfl
    exact h hname
  rw [FieldKey.ofTree?, hidx]

theorem OnlyKeys.of_cons {v : Value} (h : OnlyKeys names ((key, v) :: ms)) :
    key ∈ names ∧ OnlyKeys names ms := List.forall_mem_cons.mp h

theorem onlyKeys_of_fields? {fields : List (Nat × Tree)}
    (h : Form.fields? names (ofMembers ms) = some fields) : OnlyKeys names ms := by
  induction ms generalizing fields with
  | nil => exact fun _ hkey => absurd hkey List.not_mem_nil
  | cons member rest ih =>
    obtain ⟨key, v⟩ := member
    rw [ofMembers, Form.fields?] at h
    obtain ⟨others, hothers, h⟩ := Option.bind_eq_some_iff.mp h
    refine List.forall_mem_cons.mpr ⟨Decidable.byContradiction fun hkey => ?_, ih hothers⟩
    rw [FieldKey.ofTree?_of_not_mem hkey] at h
    cases h

theorem exists_fields? (hnames : names.Nodup) (hkeys : (Entries.keys ms).Nodup)
    (h : OnlyKeys names ms) :
    ∃ fields, Form.fields? names (ofMembers ms) = some fields ∧
      ∀ n (hn : n < names.length), fields.lookup n = (ms.lookup names[n]).map ofValue := by
  induction ms with
  | nil => exact ⟨[], rfl, fun _ _ => rfl⟩
  | cons member rest ih =>
    obtain ⟨key, v⟩ := member
    obtain ⟨hfresh, hrest⟩ := List.nodup_cons.mp hkeys
    obtain ⟨hkey, honly⟩ := h.of_cons
    obtain ⟨fields, hfields, hlookup⟩ := ih hrest honly
    obtain ⟨n, hn, rfl⟩ := List.getElem_of_mem hkey
    have hnew : fields.lookup n = none := by
      rw [hlookup n hn, Members.lookup_eq_none hfresh, Option.map_none]
    refine ⟨(n, ofValue v) :: fields, ?_, fun m hm => ?_⟩
    · simp [ofMembers, Form.fields?, hfields, FieldKey.ofTree?_getElem hnames hn, hnew]
    · rw [List.lookup_cons, Members.lookup_cons, hlookup m hm]
      by_cases hmn : m = n
      · subst hmn
        rw [beq_self_eq_true, if_pos rfl, Option.map_some]
      · rw [beq_eq_false_iff_ne.mpr hmn, if_neg fun heq => hmn ((hnames.getElem_inj_iff).mp heq)]

end Records

section Readers

open Form

variable {ms : Members} {v : Value}

theorem string?_ofValue_iff {text : String} :
    string? (ofValue v) = some text ↔ v = .string text := by
  cases v <;> simp [ofValue, string?]

theorem bool?_ofValue_iff {flag : Bool} : bool? (ofValue v) = some flag ↔ v.IsFlag flag := by
  cases v <;> simp [ofValue, bool?, Value.IsFlag]

theorem optionalString?_ofValue_iff {source : Option String} :
    optionalString? (ofValue v) = some source ↔ v.IsSource source := by
  constructor
  · intro h
    cases v with
    | null => exact Option.some.inj h ▸ .null
    | string path => exact Option.some.inj h ▸ .text path
    | _ => cases h
  · rintro (_ | path) <;> rfl

theorem Argument.ofEntries?_ofMembers (hms : WellFormedMembers ms)
    (hkeys : (Entries.keys ms).Nodup) :
    Argument.ofEntries? (ofMembers ms) = some (ms.lookup "value") := by
  induction ms with
  | nil => rfl
  | cons member rest ih =>
    obtain ⟨key, v⟩ := member
    obtain ⟨hfresh, hrest⟩ := List.nodup_cons.mp hkeys
    rw [ofMembers, Argument.ofEntries?, ih hms.2 hrest, Members.lookup_cons]
    by_cases hkey : key = "value"
    · subst hkey
      have hfield : FieldKey.ofTree? ["value"] (.string "value") = some (.field 0) := rfl
      simp [hfield, Members.lookup_eq_none hfresh, Tree.toValue?_ofValue v hms.1]
    · have hother : FieldKey.ofTree? ["value"] (.string key) = some .other :=
        FieldKey.ofTree?_of_not_mem (by simpa using hkey)
      simp [hother, Ne.symm hkey]

theorem Argument.ofTree?_ofValue_iff {arg : Argument} (hv : v.WellFormed) :
    Argument.ofTree? (ofValue v) = some arg ↔ v.IsArgument arg := by
  constructor
  · intro h
    cases v with
    | string text => exact Option.some.inj h ▸ .path text
    | object ms =>
      rw [ofValue, Argument.ofTree?, Argument.ofEntries?_ofMembers hv.2 hv.1.nodup_keys,
        Option.bind_some] at h
      obtain ⟨v, hlookup, rfl⟩ := Option.map_eq_some_iff.mp h
      exact .literal hlookup
    | _ => cases h
  · rintro (text | hlookup)
    · rfl
    · rw [ofValue, Argument.ofTree?, Argument.ofEntries?_ofMembers hv.2 hv.1.nodup_keys,
        Option.bind_some, hlookup, Option.map_some]

theorem mapM_ofTree?_ofItems_iff {items : List Value} {args : List Argument}
    (hitems : WellFormedItems items) :
    (ofItems items).mapM Argument.ofTree? = some args ↔
      List.Forall₂ Value.IsArgument items args := by
  rw [mapM_eq_some_iff]
  induction items generalizing args with
  | nil => rw [ofItems, List.forall₂_nil_left_iff, List.forall₂_nil_left_iff]
  | cons v rest ih =>
    rw [ofItems, List.forall₂_cons_left_iff, List.forall₂_cons_left_iff]
    simp only [ih hitems.2, Argument.ofTree?_ofValue_iff hitems.1]

theorem arguments?_ofValue_iff {args : List Argument} (hv : v.WellFormed) :
    arguments? (ofValue v) = some args ↔ v.AreArguments args := by
  constructor
  · intro h
    cases v with
    | array items => exact .list ((mapM_ofTree?_ofItems_iff hv).mp h)
    | _ => cases h
  · rintro ⟨h⟩
    exact (mapM_ofTree?_ofItems_iff hv).mpr h

theorem orElse_eq_some_iff {α : Type} {default : α} {read? : Tree → Option α}
    {Reads : Value → α → Prop} {m? : Option Value}
    (hread : ∀ v, m? = some v → ∀ a, read? (ofValue v) = some a ↔ Reads v a) {a : α} :
    orElse default read? (m?.map ofValue) = some a ↔ Given default Reads m? a := by
  cases m? with
  | none => exact Option.some_inj.trans eq_comm
  | some v => exact hread v rfl a

/-- The form with a text and something optional, of which an object has one or both. -/
theorem record_eq_some_iff {α : Type} {key other : String} (hne : key ≠ other)
    {make : String → α → FieldSpec} {default : α} {read? : Tree → Option α}
    {Reads : Value → α → Prop} {spec : FieldSpec} (hkeys : (Entries.keys ms).Nodup)
    (hread : ∀ v, ms.lookup other = some v → ∀ a, read? (ofValue v) = some a ↔ Reads v a) :
    (do
      let fields ← record? [key, other] (ofValue (.object ms))
      return make (← string? (← fields.lookup 0)) (← orElse default read? (fields.lookup 1))) =
        some spec ↔
      OnlyKeys [key, other] ms ∧ ∃ text, ms.lookup key = some (.string text) ∧
        ∃ a, Given default Reads (ms.lookup other) a ∧ make text a = spec := by
  by_cases honly : OnlyKeys [key, other] ms
  · obtain ⟨fields, hfields, hlookup⟩ := exists_fields? (by simpa using hne) hkeys honly
    have hfirst : fields.lookup 0 = (ms.lookup key).map ofValue := hlookup 0 (by simp)
    have hsecond : fields.lookup 1 = (ms.lookup other).map ofValue := hlookup 1 (by simp)
    simp only [ofValue, record?, hfields, hfirst, hsecond, honly, true_and, Option.bind_eq_bind,
      Option.bind_some, Option.pure_def, Option.bind_eq_some_iff, Option.some.injEq,
      Option.map_eq_some_iff, orElse_eq_some_iff hread]
    constructor
    · rintro ⟨_, ⟨v, hv, rfl⟩, text, htext, hrest⟩
      exact ⟨text, string?_ofValue_iff.mp htext ▸ hv, hrest⟩
    · rintro ⟨text, htext, hrest⟩
      exact ⟨_, ⟨_, htext, rfl⟩, text, rfl, hrest⟩
  · have hnone : record? [key, other] (ofValue (.object ms)) = none :=
      Option.eq_none_iff_forall_ne_some.mpr fun _ h => honly (onlyKeys_of_fields? h)
    simp [hnone, honly]

end Readers

end Reshape
