import Mathlib.Data.List.Perm.Basic
import Mathlib.Data.String.Basic
import Mathlib.Tactic.SplitIfs
import Reshape.Proofs.Members

/-! # Ascending keys

Entries by ascending key are determined by what they are, whatever the order in
which they came. Code points have the order of the octets that encode them in
UTF-8, so keys ascend in both orders at once.
-/

namespace Reshape

section Octets

def octets (s : String) : List UInt8 := s.toUTF8.data.toList

theorem octets_ofList (cs : List Char) :
    octets (.ofList cs) = cs.flatMap String.utf8EncodeChar := by
  rw [octets, String.toUTF8, String.toByteArray_ofList, List.utf8Encode, List.data_toByteArray]

theorem toNat_lt_of_char (c : Char) : c.toNat < 0x110000 := by
  have h := c.valid
  simp only [UInt32.isValidChar, Nat.isValidChar, Char.toNat_val] at h
  omega

theorem utf8EncodeChar_append_lt {c d : Char} (h : c < d) (cs ds : List UInt8) :
    String.utf8EncodeChar c ++ cs < String.utf8EncodeChar d ++ ds := by
  have hlt : c.toNat < d.toNat := h
  have hd := toNat_lt_of_char d
  simp only [String.utf8EncodeChar, Char.toNat_val]
  split_ifs
  all_goals
    simp only [List.cons_append, List.nil_append, List.cons_lt_cons_iff, UInt8.lt_iff_toNat_lt,
      ← UInt8.toNat_inj, UInt8.toNat_ofNat']
    simp (disch := omega) only [Nat.mod_eq_of_lt]
    omega

theorem append_lt_append_left {α : Type} [LT α] (xs : List α) {ys zs : List α} (h : ys < zs) :
    xs ++ ys < xs ++ zs := by
  induction xs with
  | nil => exact h
  | cons x xs ih => exact List.cons_lt_cons_iff.mpr (.inr ⟨rfl, ih⟩)

theorem flatMap_utf8EncodeChar_lt {cs ds : List Char} (h : cs < ds) :
    cs.flatMap String.utf8EncodeChar < ds.flatMap String.utf8EncodeChar := by
  induction h with
  | @nil d ds =>
    have hpos : String.utf8EncodeChar d ≠ [] := by
      rw [String.utf8EncodeChar]
      split_ifs <;> simp
    obtain ⟨octet, rest, hcons⟩ := List.exists_cons_of_ne_nil hpos
    rw [List.flatMap_cons, hcons]
    exact List.nil_lt_cons _ _
  | cons _ ih => exact append_lt_append_left _ ih
  | rel h => exact utf8EncodeChar_append_lt h _ _

/-- Texts have the order of their octets. -/
theorem octets_lt_octets_iff {s t : String} : octets s < octets t ↔ s < t := by
  have hmono : ∀ {s t : String}, s < t → octets s < octets t := by
    intro s t h
    rw [← String.ofList_toList (s := s), ← String.ofList_toList (s := t), octets_ofList,
      octets_ofList]
    exact flatMap_utf8EncodeChar_lt (String.lt_iff.mp h)
  refine ⟨fun h => ?_, hmono⟩
  rcases lt_trichotomy s t with hlt | rfl | hgt
  · exact hlt
  · exact absurd h (List.lt_irrefl _)
  · exact absurd h (List.lt_asymm (hmono hgt))

end Octets

namespace Entries

variable {α : Type} {entries others : Entries α}

/-- Each key is above those before it. -/
def Ascending (entries : Entries α) : Prop := entries.Pairwise (·.1 < ·.1)

instance : Decidable (Ascending entries) := inferInstanceAs (Decidable (List.Pairwise _ _))

def sorted (entries : Entries α) : Entries α :=
  entries.mergeSort fun a b => octets a.1 ≤ octets b.1

theorem Ascending.nodup_keys (h : Ascending entries) : (keys entries).Nodup :=
  (List.pairwise_map.mpr h).imp fun hlt => hlt.ne

theorem Ascending.eq_of_perm (h : Ascending entries) (h' : Ascending others)
    (hperm : entries.Perm others) : entries = others :=
  hperm.eq_of_pairwise (fun _ _ _ _ hlt hgt => absurd hgt hlt.asymm) h h'

theorem Ascending.of_keys_eq {β : Type} {images : Entries β} (h : Ascending entries)
    (hkeys : keys images = keys entries) : Ascending images := by
  have hascending : (keys entries).Pairwise (· < ·) := List.pairwise_map.mpr h
  rw [← hkeys] at hascending
  exact List.pairwise_map.mp hascending

theorem sorted_perm (entries : Entries α) : (sorted entries).Perm entries :=
  List.mergeSort_perm _ _

theorem ascending_sorted (h : (keys entries).Nodup) : Ascending (sorted entries) := by
  have hle : (sorted entries).Pairwise fun a b => octets a.1 ≤ octets b.1 := by
    refine (List.pairwise_mergeSort ?_ ?_ entries).imp of_decide_eq_true
    · intro a b c hab hbc
      exact decide_eq_true (List.le_trans (of_decide_eq_true hab) (of_decide_eq_true hbc))
    · intro a b
      simpa using List.le_total (octets a.1) (octets b.1)
  have hne : (sorted entries).Pairwise fun a b => a.1 ≠ b.1 :=
    List.pairwise_map.mp (((sorted_perm entries).map Prod.fst).nodup_iff.mpr h)
  refine (hle.and hne).imp fun {a b} ⟨hle, hne⟩ => ?_
  have hnlt : ¬ b.1 < a.1 := fun h => hle (octets_lt_octets_iff.mpr h)
  exact lt_of_le_of_ne (not_lt.mp hnlt) hne

section Correspondence

variable {β : Type} {R : String × α → String × β → Prop} {images : Entries β}

theorem keys_eq_of_forall₂ (hR : ∀ a b, R a b → a.1 = b.1) (h : List.Forall₂ R entries images) :
    keys entries = keys images := by
  induction h with
  | nil => rfl
  | cons hab _ ih => exact congrArg₂ List.cons (hR _ _ hab) ih

theorem forall₂_sorted (hR : ∀ a b, R a b → a.1 = b.1) (hkeys : (keys entries).Nodup)
    (h : List.Forall₂ R entries images) : List.Forall₂ R (sorted entries) (sorted images) := by
  obtain ⟨others, hothers, hperm⟩ := List.perm_comp_forall₂ (sorted_perm entries) h
  have hascending : Ascending others :=
    (ascending_sorted hkeys).of_keys_eq (keys_eq_of_forall₂ hR hothers).symm
  have hkeys' : (keys images).Nodup := keys_eq_of_forall₂ hR h ▸ hkeys
  rwa [← hascending.eq_of_perm (ascending_sorted hkeys') (hperm.trans (sorted_perm images).symm)]

end Correspondence

end Entries

namespace Members

variable {members : Members}

theorem eq_or_mem_of_mem_insert {key : String} {value : Value} {member : String × Value}
    (h : member ∈ members.insert key value) : member = (key, value) ∨ member ∈ members := by
  induction members with
  | nil => exact .inl (List.mem_singleton.mp h)
  | cons first rest ih =>
    rw [insert] at h
    split at h
    · exact List.mem_cons.mp h
    split at h
    · exact (List.mem_cons.mp h).imp id (List.mem_cons_of_mem _)
    · rcases List.mem_cons.mp h with rfl | h
      · exact .inr List.mem_cons_self
      · exact (ih h).imp id (List.mem_cons_of_mem _)

theorem ascending_insert (h : Entries.Ascending members) (key : String) (value : Value) :
    Entries.Ascending (members.insert key value) := by
  induction members with
  | nil => exact List.pairwise_singleton _ _
  | cons member rest ih =>
    obtain ⟨k, v⟩ := member
    obtain ⟨hbelow, hrest⟩ := List.pairwise_cons.mp h
    rw [insert]
    split
    · rename_i hlt
      refine List.pairwise_cons.mpr ⟨?_, h⟩
      exact List.forall_mem_cons.mpr ⟨hlt, fun other hother => hlt.trans (hbelow other hother)⟩
    split
    · rename_i heq
      exact List.pairwise_cons.mpr ⟨heq ▸ hbelow, hrest⟩
    · rename_i hge hne
      have hlt : k < key := lt_of_le_of_ne (not_lt.mp hge) (Ne.symm hne)
      refine List.pairwise_cons.mpr ⟨fun other hother => ?_, ih hrest⟩
      rcases eq_or_mem_of_mem_insert hother with rfl | hother
      · exact hlt
      · exact hbelow other hother

theorem ascending_ofList (entries : Members) : Entries.Ascending (ofList entries) := by
  suffices hfold : ∀ members : Members, Entries.Ascending members →
      Entries.Ascending (insertAll entries members) from hfold [] List.Pairwise.nil
  induction entries with
  | nil => exact fun _ h => h
  | cons entry rest ih => exact fun members h => ih _ (ascending_insert h entry.1 entry.2)

theorem ofList_eq_self (h : Entries.Ascending members) : ofList members = members :=
  (ascending_ofList members).eq_of_perm h (ofList_perm h.nodup_keys)

theorem ofList_eq_sorted (h : (Entries.keys members).Nodup) :
    ofList members = Entries.sorted members :=
  (ascending_ofList members).eq_of_perm (Entries.ascending_sorted h)
    ((ofList_perm h).trans (Entries.sorted_perm members).symm)

end Members

end Reshape
