import Mathlib.Data.List.Nodup
import Reshape.Entries
import Reshape.Value

/-! # Collecting members

An object is collected from entries one by one. If no key is repeated, it holds
exactly these entries, whatever the order in which they come.
-/

namespace Reshape

namespace Members

def insertAll (entries members : Members) : Members :=
  entries.foldl (fun acc entry => acc.insert entry.1 entry.2) members

variable {key other : String} {members entries others : Members}

theorem ofList_eq_insertAll (entries : Members) : ofList entries = insertAll entries [] := rfl

@[simp] theorem insertAll_nil (members : Members) : insertAll [] members = members := rfl

@[simp] theorem insertAll_cons (key : String) (value : Value) (entries members : Members) :
    insertAll ((key, value) :: entries) members = insertAll entries (members.insert key value) :=
  rfl

theorem lookup_cons (key other : String) (value : Value) (members : Members) :
    ((key, value) :: members).lookup other =
      if other = key then some value else members.lookup other := by
  by_cases h : other = key
  · rw [if_pos h, h, List.lookup_cons_self]
  · rw [if_neg h, List.lookup_cons, beq_eq_false_iff_ne.mpr h]

theorem lookup_eq_none (h : key ∉ Entries.keys members) : members.lookup key = none := by
  rw [List.lookup_eq_none_iff]
  intro member hmem
  rw [bne_iff_ne]
  rintro rfl
  exact h (List.mem_map_of_mem hmem)

theorem mem_keys_of_lookup {value : Value} (h : members.lookup key = some value) :
    key ∈ Entries.keys members := by
  refine Decidable.byContradiction fun hkey => ?_
  rw [lookup_eq_none hkey] at h
  cases h

theorem lookup_insert (key other : String) (value : Value) (members : Members) :
    (members.insert key value).lookup other =
      if other = key then some value else members.lookup other := by
  induction members with
  | nil => exact lookup_cons key other value []
  | cons member rest ih =>
    obtain ⟨k, v⟩ := member
    rw [insert, lookup_cons k]
    split
    · rw [lookup_cons, lookup_cons]
    · split
      · rename_i heq
        rw [lookup_cons, heq]
        split <;> rfl
      · rw [lookup_cons, ih]
        grind

theorem insert_perm (h : key ∉ Entries.keys members) (value : Value) :
    (members.insert key value).Perm ((key, value) :: members) := by
  induction members with
  | nil => exact .refl _
  | cons member rest ih =>
    obtain ⟨k, v⟩ := member
    rw [Entries.keys_cons, List.mem_cons, not_or] at h
    rw [insert, if_neg h.1]
    split
    · exact .refl _
    · exact ((ih h.2).cons _).trans (.swap _ _ _)

theorem insert_comm (h : key ≠ other) (v w : Value) (members : Members) :
    (members.insert key v).insert other w = (members.insert other w).insert key v := by
  induction members with
  | nil =>
    simp only [insert]
    grind
  | cons member rest ih =>
    obtain ⟨k, u⟩ := member
    simp only [insert]
    grind [insert]

theorem insert_insert (key : String) (v w : Value) (members : Members) :
    (members.insert key v).insert key w = members.insert key w := by
  induction members with
  | nil => simp [insert]
  | cons member rest ih =>
    obtain ⟨k, u⟩ := member
    simp only [insert]
    grind [insert]

theorem ofList_perm (h : (Entries.keys entries).Nodup) : (ofList entries).Perm entries := by
  suffices hfold : ∀ members : Members, (Entries.keys (entries ++ members)).Nodup →
      (insertAll entries members).Perm (entries ++ members) by
    rw [← List.append_nil entries] at h
    exact (hfold [] h).trans (by rw [List.append_nil])
  clear h
  induction entries with
  | nil => exact fun _ _ => .refl _
  | cons entry rest ih =>
    obtain ⟨k, v⟩ := entry
    intro members h
    rw [List.cons_append, Entries.keys_cons, List.nodup_cons] at h
    have hfresh : k ∉ Entries.keys members := fun hmem =>
      h.1 (Entries.keys_append rest members ▸ List.mem_append_right _ hmem)
    have hinsert : (rest ++ members.insert k v).Perm ((k, v) :: (rest ++ members)) :=
      ((insert_perm hfresh v).append_left rest).trans List.perm_middle
    refine (ih _ ?_).trans hinsert
    exact (hinsert.map Prod.fst).nodup_iff.mpr (List.nodup_cons.mpr h)

/-- The order of the entries makes no difference to the members, if no key is repeated. -/
theorem ofList_eq_of_perm (h : (Entries.keys entries).Nodup) (hperm : entries.Perm others) :
    ofList entries = ofList others := by
  refine hperm.foldl_eq' (fun first hfirst second hsecond members => ?_) []
  by_cases hkey : first.1 = second.1
  · rw [List.inj_on_of_nodup_map h hfirst hsecond hkey]
  · exact insert_comm hkey first.2 second.2 members

theorem lookup_ofList (h : (Entries.keys entries).Nodup) (key : String) :
    (ofList entries).lookup key = entries.lookup key := by
  suffices hfold : ∀ members : Members,
      (insertAll entries members).lookup key =
        (entries.lookup key).or (members.lookup key) by
    rw [ofList_eq_insertAll, hfold, List.lookup_nil, Option.or_none]
  induction entries with
  | nil => exact fun _ => rfl
  | cons entry rest ih =>
    obtain ⟨k, v⟩ := entry
    intro members
    rw [Entries.keys_cons, List.nodup_cons] at h
    rw [insertAll_cons, ih h.2, lookup_insert, lookup_cons]
    split
    · rename_i heq
      rw [heq, lookup_eq_none h.1]
      rfl
    · rfl

end Members

end Reshape
