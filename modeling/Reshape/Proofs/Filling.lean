import Reshape.Proofs.Members
import Reshape.Defaults

/-! # Filling gaps in objects

A gap is a list of keys that leads to an object which does not have the last of
them. Filling it adds a member there, and leaves everything else as it is.
-/

namespace Reshape

namespace Members

variable {key other : String} {keys gap gap' : List String} {value : Value}
  {members inner : Members}

/-- The value to which keys lead through objects. -/
def at? (keys : List String) (members : Members) : Option Value :=
  keys.foldlM Defaults.child? (.object members)

theorem at?_cons (key : String) (keys : List String) (members : Members) :
    members.at? (key :: keys) = (members.lookup key).bind (keys.foldlM Defaults.child? ·) := rfl

theorem at?_cons_of_object (h : members.lookup key = some (.object inner)) :
    members.at? (key :: keys) = inner.at? keys := by
  rw [at?_cons, h]
  rfl

/-- Put a member into the object to which the keys before its own lead, if there is one. -/
def insertAt : List String → Value → Members → Members
  | [], _, members => members
  | [key], value, members => members.insert key value
  | key :: next :: keys, value, members =>
    match members.lookup key with
    | some (.object inner) => members.insert key (.object (insertAt (next :: keys) value inner))
    | _ => members

theorem insertAt_cons_of_object (hkeys : keys ≠ [])
    (h : members.lookup key = some (.object inner)) :
    insertAt (key :: keys) value members =
      members.insert key (.object (insertAt keys value inner)) := by
  obtain ⟨next, rest, rfl⟩ := List.exists_cons_of_ne_nil hkeys
  rw [insertAt, h]

theorem lookup_insertAt_of_ne (h : other ≠ key) :
    (insertAt (key :: keys) value members).lookup other = members.lookup other := by
  have hinsert (v : Value) : (members.insert key v).lookup other = members.lookup other := by
    rw [lookup_insert, if_neg h]
  cases keys with
  | nil => exact hinsert value
  | cons next rest =>
    rw [insertAt]
    split
    · exact hinsert _
    · rfl

/-- Keys lead to an object that does not have the last one of them. -/
inductive Lacks : List String → Members → Prop where
  | here {key : String} {members : Members} : members.lookup key = none → Lacks [key] members
  | inside {key : String} {keys : List String} {members inner : Members} :
    members.lookup key = some (.object inner) → Lacks keys inner → Lacks (key :: keys) members

theorem Lacks.ne_nil (h : Lacks keys members) : keys ≠ [] := by
  cases h <;> simp

theorem Lacks.congr (h : Lacks (key :: keys) members)
    (hlookup : inner.lookup key = members.lookup key) : Lacks (key :: keys) inner := by
  cases h with
  | here hnone => exact .here (hlookup.trans hnone)
  | inside hsome hkeys => exact .inside (hlookup.trans hsome) hkeys

theorem Lacks.at?_eq_none (h : Lacks gap members) : members.at? gap = none := by
  induction h with
  | here h =>
    rw [at?_cons, h]
    rfl
  | inside h _ ih => rw [at?_cons_of_object h, ih]

theorem Lacks.at?_insertAt (h : Lacks gap members) (value : Value) :
    (insertAt gap value members).at? gap = some value := by
  induction h with
  | @here key members h =>
    rw [insertAt, at?_cons, lookup_insert, if_pos rfl]
    rfl
  | @inside key keys members inner h hkeys ih =>
    rw [insertAt_cons_of_object hkeys.ne_nil h, ← ih]
    refine at?_cons_of_object ?_
    rw [lookup_insert, if_pos rfl]

theorem Lacks.eq_of_below (hgap : Lacks gap members) (hgap' : Lacks gap' members)
    (h : gap <+: gap') : gap = gap' := by
  induction hgap generalizing gap' with
  | here hnone =>
    cases hgap' with
    | here _ => rw [(List.cons_prefix_cons.mp h).1]
    | inside hsome _ =>
      rw [(List.cons_prefix_cons.mp h).1, hsome] at hnone
      cases hnone
  | inside hsome _ ih =>
    cases hgap' with
    | here hnone =>
      rw [(List.cons_prefix_cons.mp h).1, hnone] at hsome
      cases hsome
    | inside hsome' hkeys' =>
      obtain ⟨rfl, hbelow⟩ := List.cons_prefix_cons.mp h
      obtain ⟨rfl⟩ := Option.some.inj (hsome.symm.trans hsome')
      rw [ih hkeys' hbelow]

theorem Lacks.insertAt (hgap : Lacks gap members) (hgap' : Lacks gap' members) (h : gap' ≠ gap)
    (value : Value) : Lacks gap (members.insertAt gap' value) := by
  induction hgap generalizing gap' with
  | @here key members hnone =>
    refine .here ?_
    cases hgap' with
    | here _ => rw [lookup_insertAt_of_ne (fun heq => h (by rw [heq])), hnone]
    | inside hsome _ =>
      rw [lookup_insertAt_of_ne, hnone]
      rintro rfl
      rw [hsome] at hnone
      cases hnone
  | @inside key keys members inner hsome hkeys ih =>
    cases hgap' with
    | @here key' _ hnone =>
      refine .inside ?_ hkeys
      rw [lookup_insertAt_of_ne, hsome]
      rintro rfl
      rw [hnone] at hsome
      cases hsome
    | @inside key' keys' _ inner' hsome' hkeys' =>
      by_cases hkey : key = key'
      · subst hkey
        obtain ⟨rfl⟩ := Option.some.inj (hsome.symm.trans hsome')
        have hinner := ih hkeys' fun heq => h (by rw [heq])
        rw [insertAt_cons_of_object hkeys'.ne_nil hsome]
        refine .inside ?_ hinner
        rw [lookup_insert, if_pos rfl]
      · refine .inside ?_ hkeys
        rw [lookup_insertAt_of_ne hkey, hsome]

theorem at?_insertAt_of_apart (h : ¬ gap <+: keys) (h' : ¬ keys <+: gap) :
    (insertAt gap value members).at? keys = members.at? keys := by
  induction gap generalizing keys members with
  | nil => exact absurd List.nil_prefix h
  | cons key rest ih =>
    cases keys with
    | nil => exact absurd List.nil_prefix h'
    | cons other keys =>
      by_cases hkey : other = key
      · subst hkey
        rw [List.cons_prefix_cons, and_iff_right rfl] at h h'
        have hrest : rest ≠ [] := by
          rintro rfl
          exact h List.nil_prefix
        obtain ⟨next, more, rfl⟩ := List.exists_cons_of_ne_nil hrest
        rw [insertAt]
        split
        · rename_i inner hinner
          rw [at?_cons_of_object hinner, ← ih h h']
          refine at?_cons_of_object ?_
          rw [lookup_insert, if_pos rfl]
        · rfl
      · rw [at?_cons, at?_cons, lookup_insertAt_of_ne hkey]

theorem insertAt_insert_of_ne (h : other ≠ key) (v : Value) :
    insertAt (key :: keys) value (members.insert other v) =
      (insertAt (key :: keys) value members).insert other v := by
  cases keys with
  | nil => exact insert_comm h v value members
  | cons next rest =>
    rw [insertAt, insertAt, lookup_insert, if_neg h.symm]
    split
    · exact insert_comm h v _ members
    · rfl

theorem insertAt_insert_self (hkeys : keys ≠ []) :
    insertAt (key :: keys) value (members.insert key (.object inner)) =
      members.insert key (.object (insertAt keys value inner)) := by
  have hlookup : (members.insert key (.object inner)).lookup key = some (.object inner) := by
    rw [lookup_insert, if_pos rfl]
  rw [insertAt_cons_of_object hkeys hlookup, insert_insert]

section Fill

variable {defaults : Defaults} {gaps others : List (List String)}

def fillGap (defaults : Defaults) (members : Members) (gap : List String) : Members :=
  match defaults.resolve gap with
  | some v => insertAt gap v members
  | none => members

/-- Fill gaps with their defaults, as far as they have any. -/
def fill (defaults : Defaults) (gaps : List (List String)) (members : Members) : Members :=
  gaps.foldl (fillGap defaults) members

@[simp] theorem fill_nil (members : Members) : fill defaults [] members = members := rfl

@[simp] theorem fill_cons (gap : List String) (gaps : List (List String)) (members : Members) :
    fill defaults (gap :: gaps) members = fill defaults gaps (fillGap defaults members gap) := rfl

@[simp] theorem fill_append (gaps others : List (List String)) (members : Members) :
    fill defaults (gaps ++ others) members = fill defaults others (fill defaults gaps members) :=
  List.foldl_append

theorem at?_fill_of_apart (h : ∀ gap ∈ gaps, ¬ gap <+: keys ∧ ¬ keys <+: gap)
    (members : Members) : (fill defaults gaps members).at? keys = members.at? keys := by
  induction gaps generalizing members with
  | nil => rfl
  | cons gap gaps ih =>
    rw [List.forall_mem_cons] at h
    rw [fill_cons, ih h.2, fillGap]
    split
    · exact at?_insertAt_of_apart h.1.1 h.1.2
    · rfl

/-- Where there are gaps, each of them is filled with its default. -/
theorem at?_fill_of_mem (hnodup : gaps.Nodup) (hgaps : ∀ gap ∈ gaps, Lacks gap members)
    (hgap : gap ∈ gaps) : (fill defaults gaps members).at? gap = defaults.resolve gap := by
  induction gaps generalizing members with
  | nil => cases hgap
  | cons first gaps ih =>
    rw [List.forall_mem_cons] at hgaps
    rw [List.nodup_cons] at hnodup
    rw [fill_cons]
    have hne : ∀ gap ∈ gaps, first ≠ gap := fun gap hmem heq => hnodup.1 (heq ▸ hmem)
    rcases List.mem_cons.mp hgap with rfl | hmem
    · have hapart : ∀ other ∈ gaps, ¬ other <+: gap ∧ ¬ gap <+: other := fun other hother =>
        ⟨fun h => hne other hother ((hgaps.2 other hother).eq_of_below hgaps.1 h).symm,
          fun h => hne other hother (hgaps.1.eq_of_below (hgaps.2 other hother) h)⟩
      rw [at?_fill_of_apart hapart, fillGap]
      split
      · rename_i v hv
        rw [hgaps.1.at?_insertAt, hv]
      · rename_i hnone
        rw [hgaps.1.at?_eq_none, hnone]
    · refine ih hnodup.2 (fun other hother => ?_) hmem
      rw [fillGap]
      split
      · exact (hgaps.2 other hother).insertAt hgaps.1 (hne other hother) _
      · exact hgaps.2 other hother

theorem fill_insert_of_ne (h : ∀ gap ∈ gaps, gap.head? ≠ some key) (v : Value)
    (members : Members) :
    fill defaults gaps (members.insert key v) = (fill defaults gaps members).insert key v := by
  induction gaps generalizing members with
  | nil => rfl
  | cons gap gaps ih =>
    rw [List.forall_mem_cons] at h
    rw [fill_cons, fill_cons, ← ih h.2]
    congr 1
    rw [fillGap, fillGap]
    split
    · cases gap with
      | nil => rfl
      | cons other keys => exact insertAt_insert_of_ne (fun heq => h.1 (by rw [heq]; rfl)) v
    · rfl

/-- Gaps in a member are filled from the defaults under its key. -/
theorem fill_map_insert (h : ∀ gap ∈ gaps, gap ≠ []) (inner members : Members) :
    fill defaults (gaps.map (key :: ·)) (members.insert key (.object inner)) =
      members.insert key (.object (fill (defaults.subtree key) gaps inner)) := by
  induction gaps generalizing inner with
  | nil => rfl
  | cons gap gaps ih =>
    rw [List.forall_mem_cons] at h
    rw [List.map_cons, fill_cons, fill_cons, ← ih h.2]
    congr 1
    rw [fillGap, fillGap, Defaults.resolve_subtree h.1]
    split
    · exact insertAt_insert_self h.1
    · rfl

end Fill

end Members

end Reshape
