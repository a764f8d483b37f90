import Mathlib.Data.Finset.Card
import Mathlib.Data.Finset.Range
import Mathlib.Logic.Relation
import Reshape.Mapper.Compile

/-! # Embedded mappers

A configuration embeds the mappers of its bindings, those in its inline trees
included. Mappers that embed each other form a graph, which may have cycles. A
walk that enters no mapper twice ends, because fewer mappers are left to enter.
-/

namespace Reshape

mutual

def Binding.embedded : Binding → List MapperId
  | .path .. => []
  | .transform _ => []
  | .mapper id _ => [id]
  | .tree bindings => embeddedIn bindings

def embeddedIn : List (String × Binding) → List MapperId
  | [] => []
  | (_, binding) :: rest => binding.embedded ++ embeddedIn rest

end

theorem mem_embedded_mapper (id : MapperId) (source : Option String) :
    id ∈ (Binding.mapper id source).embedded := List.mem_singleton_self id

theorem forall_embeddedIn_cons {P : MapperId → Prop} {key : String} {binding : Binding}
    {rest : List (String × Binding)} :
    (∀ j ∈ embeddedIn ((key, binding) :: rest), P j) ↔
      (∀ j ∈ binding.embedded, P j) ∧ ∀ j ∈ embeddedIn rest, P j :=
  List.forall_mem_append

/-- The mappers that a configuration embeds, at any depth of inline trees. -/
def Configuration.embedded (config : Configuration) : List MapperId := embeddedIn config

def Configuration.Within (n : Nat) (config : Configuration) : Prop := ∀ j ∈ config.embedded, j < n

instance (n : Nat) (config : Configuration) : Decidable (config.Within n) :=
  inferInstanceAs (Decidable (∀ j ∈ config.embedded, j < n))

namespace Mapper

def forget (m : Mapper) : Mapper := { m with compiled := none }

end Mapper

namespace Store

/-- The configurations, defaults and modes of all mappers, without any procedure. -/
def forget (s : Store) : Store := ⟨s.mappers.map Mapper.forget⟩

def IsCompiled (s : Store) (id : MapperId) : Prop := (s.mapper id).isCompiled = true

instance (s : Store) (id : MapperId) : Decidable (s.IsCompiled id) :=
  inferInstanceAs (Decidable (_ = true))

def Embeds (s : Store) (i j : MapperId) : Prop := j ∈ (s.mapper i).config.embedded

/-- One mapper embeds another, directly or through others, or is that mapper. -/
def Reaches (s : Store) : MapperId → MapperId → Prop := Relation.ReflTransGen s.Embeds

/-- How many mappers of a store are not on a stack. -/
def unentered (s : Store) (stack : List MapperId) : Nat :=
  (Finset.range s.size \ stack.toFinset).card

theorem unentered_cons_lt {s : Store} {stack : List MapperId} {id : MapperId}
    (hs : id ∉ stack) (hid : id < s.size) : s.unentered (id :: stack) < s.unentered stack := by
  apply Finset.card_lt_card
  refine ⟨Finset.sdiff_subset_sdiff (Finset.Subset.refl _) (by simp), fun h => ?_⟩
  have hmem : id ∈ Finset.range s.size \ stack.toFinset := by simp [hs, hid]
  simpa using h hmem

theorem unentered_nil (s : Store) : s.unentered [] = s.size := by
  simp [unentered]

theorem mapper_of_size_le {s : Store} {id : MapperId} (h : s.size ≤ id) :
    s.mapper id = .new [] .empty .safe := by
  simp only [mapper, List.getD_eq_getElem?_getD, List.getElem?_eq_none h, Option.getD_none]

theorem lt_size_of_isCompiled {s : Store} {id : MapperId} (h : s.IsCompiled id) :
    id < s.size := by
  by_contra hn
  simp [IsCompiled, mapper_of_size_le (Nat.le_of_not_lt hn), Mapper.new, Mapper.isCompiled] at h

theorem lt_size_of_embeds {s : Store} {i j : MapperId} (h : s.Embeds i j) : i < s.size := by
  by_contra hn
  simp [Embeds, mapper_of_size_le (Nat.le_of_not_lt hn), Mapper.new, Configuration.embedded,
    embeddedIn] at h

/--
A property of a mapper and the stack inside which it is met holds if it holds
where the mapper is on the stack, and passes from what a mapper embeds to it.
-/
theorem entering_induction (s : Store) {motive : List MapperId → MapperId → Prop}
    (entered : ∀ stack id, id ∈ stack → motive stack id)
    (enter : ∀ stack id, id ∉ stack → (∀ j, s.Embeds id j → motive (id :: stack) j) →
      motive stack id)
    (stack : List MapperId) (id : MapperId) : motive stack id := by
  induction hn : s.unentered stack using Nat.strong_induction_on generalizing stack id with
  | _ n ih =>
    by_cases hmem : id ∈ stack
    · exact entered stack id hmem
    · refine enter stack id hmem fun j hj => ?_
      exact ih _ (hn ▸ unentered_cons_lt hmem (lt_size_of_embeds hj)) _ j rfl

theorem isCompiled_iff {s : Store} {id : MapperId} :
    s.IsCompiled id ↔ ∃ p, (s.mapper id).compiled = some p :=
  Option.isSome_iff_exists

theorem isCompiled_of_eq_some {s : Store} {id : MapperId} {p : Procedure}
    (h : (s.mapper id).compiled = some p) : s.IsCompiled id :=
  isCompiled_iff.mpr ⟨p, h⟩

@[simp] theorem size_forget (s : Store) : s.forget.size = s.size := by simp [forget, size]

@[simp] theorem mapper_forget (s : Store) (id : MapperId) :
    s.forget.mapper id = (s.mapper id).forget := by
  simp only [mapper, forget, List.getD_eq_getElem?_getD, List.getElem?_map]
  cases s.mappers[id]? <;> rfl

section Agreement

variable {s t : Store} (h : s.forget = t.forget)
include h

theorem size_eq_of_forget : s.size = t.size := by
  rw [← size_forget s, h, size_forget]

theorem forget_mapper_eq (id : MapperId) : (s.mapper id).forget = (t.mapper id).forget := by
  rw [← mapper_forget, h, mapper_forget]

theorem config_eq_of_forget (id : MapperId) : (s.mapper id).config = (t.mapper id).config :=
  (congrArg Mapper.config (forget_mapper_eq h id) :)

theorem embeds_iff_of_forget {i j : MapperId} : s.Embeds i j ↔ t.Embeds i j := by
  rw [Embeds, Embeds, config_eq_of_forget h]

end Agreement

section Publish

variable {s : Store} {id : MapperId} {p : Procedure}

theorem mapper_publish (hid : id < s.size) (j : MapperId) :
    (s.publish id p).mapper j =
      if j = id then { s.mapper id with compiled := some p } else s.mapper j := by
  simp only [mapper, publish, modify, List.getD_eq_getElem?_getD, List.getElem?_modify]
  by_cases hj : j = id
  · subst hj
    simp [List.getElem?_eq_getElem hid]
  · simp [hj, Ne.symm hj]

@[simp] theorem forget_publish : (s.publish id p).forget = s.forget := by
  simp only [forget, publish, modify, mk.injEq]
  apply List.ext_getElem?
  intro j
  simp only [List.getElem?_map, List.getElem?_modify]
  by_cases hj : id = j
  · simp only [hj, if_true, Functor.map, Option.map_map]
    rfl
  · simp [hj]

theorem isCompiled_publish (hid : id < s.size) {j : MapperId} :
    (s.publish id p).IsCompiled j ↔ j = id ∨ s.IsCompiled j := by
  rw [IsCompiled, mapper_publish hid]
  by_cases hj : j = id <;> simp [hj, IsCompiled, Mapper.isCompiled]

end Publish

section Add

variable {s : Store} {m : Mapper}

theorem size_add : (s.add m).2.size = s.size + 1 := by simp [add, size]

theorem mapper_add_of_ne {j : MapperId} (hj : j ≠ s.size) :
    (s.add m).2.mapper j = s.mapper j := by
  simp only [mapper, add, List.getD_eq_getElem?_getD, List.getElem?_append]
  split
  · rfl
  · rename_i hlt
    have hle : s.mappers.length < j := lt_of_le_of_ne (Nat.le_of_not_lt hlt) (Ne.symm hj)
    rw [List.getElem?_eq_none hle.le, List.getElem?_eq_none (by simp; omega)]

theorem mapper_add_size : (s.add m).2.mapper s.size = m := by
  simp [mapper, add, size]

end Add

section Configure

variable {s t : Store} {id : MapperId} {edit : Configuration → Configuration}

theorem configure_eq_ok (h : s.configure id edit = .ok t) :
    ¬ s.IsCompiled id ∧ t = s.modify id fun m => { m with config := edit m.config } := by
  unfold configure at h
  split at h
  · cases h
  · rename_i hc
    exact ⟨hc, (Except.ok.inj h).symm⟩

theorem size_modify (f : Mapper → Mapper) : (s.modify id f).size = s.size := by
  simp [modify, size]

theorem mapper_modify_of_ne (f : Mapper → Mapper) {j : MapperId} (hj : j ≠ id) :
    (s.modify id f).mapper j = s.mapper j := by
  simp [mapper, modify, List.getD_eq_getElem?_getD, Ne.symm hj]

theorem mapper_modify_self (f : Mapper → Mapper) (hid : id < s.size) :
    (s.modify id f).mapper id = f (s.mapper id) := by
  have hlen : id < s.mappers.length := hid
  simp [mapper, modify, List.getD_eq_getElem?_getD, hlen]

end Configure

end Store

end Reshape
