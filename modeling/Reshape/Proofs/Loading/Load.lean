import Reshape.Proofs.Composition.Later
import Reshape.Proofs.Loading.Fields

/-! # Loads

A load adds one mapper to the store of a loader and compiles it. The mappers that
were there before keep their configurations, and nothing else of the loader
changes.
-/

namespace Reshape

theorem Store.forget_mapper_create {s : Store} {config : Configuration} {defaults : Defaults}
    {mode : Mode} {j : MapperId} (hj : j < s.size) :
    ((s.after (.create config defaults mode)).mapper j).forget = (s.mapper j).forget :=
  congrArg Mapper.forget (mapper_add_of_ne hj.ne)

namespace Loader

/-- The registered mappers are in the store, whatever was done with them there. -/
structure Sound (l : Loader) : Prop where
  reachable : l.store.Reachable
  registered : ∀ name id, l.mappers.get? name = some id → id < l.store.size

/-- The store with a new mapper for the bindings of a document. -/
def draft (l : Loader) (d : Document) (bindings : List (String × Binding)) : Store :=
  l.store.after (.create (Entries.ofList bindings) d.defaults d.mode)

variable {l : Loader} {d : Document} {bindings : List (String × Binding)}

theorem load_of_bindFields_error {e : LoadError}
    (h : bindFields l.toEnvironment d.fields = .error e) : l.load d = (.error e, l) := by
  rw [load, h]

theorem load_of_bindFields (h : bindFields l.toEnvironment d.fields = .ok bindings) :
    l.load d =
      ((((l.draft d bindings).compile l.store.size).1.map fun _ => l.store.size).mapError .mapping,
        { l with store := (l.draft d bindings).after (.compile l.store.size) }) := by
  let m : Mapper := .new (Entries.ofList bindings) d.defaults d.mode
  have hid : (l.store.add m).1 = l.store.size := rfl
  simp only [load, h, draft, Store.after, m, hid]
  rcases (l.store.add m).2.compile l.store.size with ⟨_ | _, store⟩ <;> rfl

theorem load_toEnvironment (l : Loader) (d : Document) :
    (l.load d).2.toEnvironment = l.toEnvironment := by
  cases h : bindFields l.toEnvironment d.fields with
  | error e => rw [load_of_bindFields_error h]
  | ok bindings => rw [load_of_bindFields h]

theorem Sound.create_valid (hl : l.Sound)
    (h : bindFields l.toEnvironment d.fields = .ok bindings) :
    (Operation.create (Entries.ofList bindings) d.defaults d.mode).Valid l.store := by
  intro j hj
  obtain ⟨name, hname⟩ := registered_of_bindFields d.fields h j (mem_embeddedIn_ofList hj)
  exact hl.registered name j hname

theorem Sound.reachable_draft (hl : l.Sound)
    (h : bindFields l.toEnvironment d.fields = .ok bindings) : (l.draft d bindings).Reachable :=
  .step hl.reachable (hl.create_valid h)

theorem size_lt_size_draft : l.store.size < (l.draft d bindings).size :=
  (Nat.lt_succ_self _).trans_eq Store.size_add.symm

theorem mapper_draft : (l.draft d bindings).mapper l.store.size =
    .new (Entries.ofList bindings) d.defaults d.mode := Store.mapper_add_size

theorem Sound.later_load (hl : l.Sound) (d : Document) : l.store.Later (l.load d).2.store := by
  cases h : bindFields l.toEnvironment d.fields with
  | error e =>
    rw [load_of_bindFields_error h]
    exact .refl
  | ok bindings =>
    rw [load_of_bindFields h]
    have hcompile : (Operation.compile l.store.size).Valid (l.draft d bindings) :=
      size_lt_size_draft
    exact .step (.step .refl (hl.create_valid h)) hcompile

/-- A loaded mapper is new, and compiled to what is built from the bindings of its document. -/
theorem Sound.load_eq_ok (hl : l.Sound) {id : MapperId} {l' : Loader}
    (h : l.load d = (.ok id, l')) :
    id = l.store.size ∧ ∃ bindings p, bindFields l.toEnvironment d.fields = .ok bindings ∧
      (l.draft d bindings).build [] [] id = .ok p ∧ (l'.store.mapper id).compiled = some p := by
  cases hb : bindFields l.toEnvironment d.fields with
  | error e =>
    rw [load_of_bindFields_error hb] at h
    cases h
  | ok bindings =>
    have hs : (l.draft d bindings).Coherent := (hl.reachable_draft hb).coherent
    obtain ⟨t, hcompile, hst, hmade⟩ := hs.compile size_lt_size_draft
    rw [load_of_bindFields hb, Store.after, hcompile] at h
    cases hp : (l.draft d bindings).build [] [] l.store.size with
    | error e =>
      rw [hp] at h
      cases h
    | ok p =>
      rw [hp] at h
      cases h
      obtain ⟨q, hq⟩ := Store.isCompiled_iff.mp (hmade p hp)
      have hbuild := hst.coherent.build_of_compiled hq
      rw [Store.build_eq_of_forget hst.forget, hp] at hbuild
      obtain rfl := Except.ok.inj hbuild
      exact ⟨rfl, bindings, p, rfl, hp, hq⟩

end Loader

end Reshape
