/-! # Ordered entries

A map from keys to values which remembers the order in which keys were first
put. Putting a present key changes its value and keeps its place; a key that is
erased and put again goes to the end.
-/

namespace Reshape

/-- Entries with distinct keys, in the order of their first `put`. -/
abbrev Entries (α : Type u) := List (String × α)

namespace Entries

variable {α : Type u} {β : Type v}

def get? (key : String) : Entries α → Option α
  | [] => none
  | (k, v) :: rest => if k = key then some v else get? key rest

/-- Replace the value of a present key in its place, or append the key. -/
def put (key : String) (value : α) : Entries α → Entries α
  | [] => [(key, value)]
  | (k, v) :: rest => if k = key then (k, value) :: rest else (k, v) :: put key value rest

def erase (key : String) : Entries α → Entries α
  | [] => []
  | (k, v) :: rest => if k = key then rest else (k, v) :: erase key rest

def remove (key : String) (entries : Entries α) : Option α × Entries α :=
  (get? key entries, erase key entries)

def keys (entries : Entries α) : List String := entries.map Prod.fst

/-- Collect entries in order; a repeated key replaces in place. -/
def ofList (entries : List (String × α)) : Entries α :=
  entries.foldl (fun acc (k, v) => put k v acc) []

@[simp] theorem get?_nil (key : String) : get? key ([] : Entries α) = none := rfl

@[simp] theorem get?_put_self (key : String) (value : α) (entries : Entries α) :
    get? key (put key value entries) = some value := by
  induction entries with
  | nil => simp [put, get?]
  | cons entry rest ih =>
    by_cases h : entry.1 = key <;> simp [put, get?, h, ih]

theorem get?_put_of_ne {key other : String} (h : key ≠ other) (value : α) (entries : Entries α) :
    get? other (put key value entries) = get? other entries := by
  induction entries with
  | nil => simp [put, get?, h]
  | cons entry rest ih =>
    by_cases hk : entry.1 = key
    · simp [put, get?, hk, h]
    · simp [put, get?, hk, ih]

@[simp] theorem keys_cons (key : String) (value : α) (rest : Entries α) :
    keys ((key, value) :: rest) = key :: keys rest := rfl

theorem get?_eq_none {key : String} {entries : Entries α} (h : key ∉ keys entries) :
    get? key entries = none := by
  induction entries with
  | nil => rfl
  | cons entry rest ih =>
    obtain ⟨k, v⟩ := entry
    rw [keys_cons, List.mem_cons, not_or] at h
    rw [get?, if_neg (Ne.symm h.1), ih h.2]

theorem get?_erase_self {key : String} {entries : Entries α} (h : (keys entries).Nodup) :
    get? key (erase key entries) = none := by
  induction entries with
  | nil => rfl
  | cons entry rest ih =>
    obtain ⟨k, v⟩ := entry
    obtain ⟨hfresh, hrest⟩ := List.nodup_cons.mp h
    by_cases hk : k = key
    · rw [erase, if_pos hk, get?_eq_none (hk ▸ hfresh)]
    · rw [erase, if_neg hk, get?, if_neg hk, ih hrest]

theorem get?_erase_of_ne {key other : String} (h : key ≠ other) (entries : Entries α) :
    get? other (erase key entries) = get? other entries := by
  induction entries with
  | nil => rfl
  | cons entry rest ih =>
    by_cases hk : entry.1 = key
    · simp [erase, get?, hk, h]
    · simp [erase, get?, hk, ih]

@[simp] theorem keys_append (entries others : Entries α) :
    keys (entries ++ others) = keys entries ++ keys others := List.map_append

/-- A key that is put keeps its place, or goes to the end. -/
theorem keys_put (key : String) (value : α) (entries : Entries α) :
    keys (put key value entries) =
      if key ∈ keys entries then keys entries else keys entries ++ [key] := by
  induction entries with
  | nil => rfl
  | cons entry rest ih =>
    obtain ⟨k, v⟩ := entry
    by_cases h : k = key
    · simp [put, h]
    · have h' : ¬key = k := fun e => h e.symm
      by_cases hm : key ∈ keys rest <;> simp [put, h, h', hm, ih]

theorem keys_erase (key : String) (entries : Entries α) :
    keys (erase key entries) = (keys entries).erase key := by
  induction entries with
  | nil => rfl
  | cons entry rest ih =>
    obtain ⟨k, v⟩ := entry
    by_cases h : k = key <;> simp [erase, h, ih]

theorem nodup_keys_put {key : String} {value : α} {entries : Entries α}
    (h : (keys entries).Nodup) : (keys (put key value entries)).Nodup := by
  rw [keys_put]
  split
  · exact h
  · rename_i hm
    exact List.nodup_append.mpr ⟨h, by simp, by
      intro a ha b hb
      rintro rfl
      exact hm (List.mem_singleton.mp hb ▸ ha)⟩

theorem put_of_not_mem {key : String} {entries : Entries α} (h : key ∉ keys entries) (value : α) :
    put key value entries = entries ++ [(key, value)] := by
  induction entries with
  | nil => rfl
  | cons entry rest ih =>
    obtain ⟨k, v⟩ := entry
    rw [keys_cons, List.mem_cons, not_or] at h
    rw [put, if_neg (Ne.symm h.1), ih h.2, List.cons_append]

theorem nodup_keys_erase {key : String} {entries : Entries α} (h : (keys entries).Nodup) :
    (keys (erase key entries)).Nodup := by
  rw [keys_erase]
  exact h.erase key

theorem ofList_concat (entries : List (String × α)) (key : String) (value : α) :
    ofList (entries ++ [(key, value)]) = put key value (ofList entries) := by
  rw [ofList, ofList, List.foldl_append, List.foldl_cons, List.foldl_nil]

theorem nodup_keys_ofList (entries : List (String × α)) : (keys (ofList entries)).Nodup := by
  suffices h : ∀ acc : Entries α, (keys acc).Nodup →
      (keys (entries.foldl (fun acc (k, v) => put k v acc) acc)).Nodup from h [] List.nodup_nil
  induction entries with
  | nil => exact fun _ h => h
  | cons entry rest ih => exact fun _ h => ih _ (nodup_keys_put h)

theorem ofList_eq_self {entries : List (String × α)} (h : (keys entries).Nodup) :
    ofList entries = entries := by
  suffices hfold : ∀ acc : Entries α, (keys (acc ++ entries)).Nodup →
      entries.foldl (fun acc (k, v) => put k v acc) acc = acc ++ entries from hfold [] h
  clear h
  induction entries with
  | nil => exact fun acc _ => (List.append_nil acc).symm
  | cons entry rest ih =>
    obtain ⟨k, v⟩ := entry
    intro acc h
    have hfresh : k ∉ keys acc := by
      rw [keys_append, keys_cons] at h
      exact fun hmem => (List.nodup_append.mp h).2.2 k hmem k List.mem_cons_self rfl
    rw [List.append_cons] at h
    rw [List.foldl_cons]
    dsimp only
    rw [put_of_not_mem hfresh]
    exact (ih _ h).trans (List.append_cons acc (k, v) rest).symm

end Entries

end Reshape
