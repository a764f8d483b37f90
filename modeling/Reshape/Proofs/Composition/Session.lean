import Reshape.Proofs.Composition.Build

/-! # Sessions

A compilation reads kept procedures and keeps new ones. In a coherent store this
makes no difference to its result, which is the one of building anew.
-/

namespace Reshape

namespace Store

/-- The procedures that a store keeps are those that would be built anew. -/
structure Coherent (s : Store) : Prop where
  closed : ∀ i, (s.mapper i).config.Within s.size
  /-- A compiled mapper embeds compiled mappers only. -/
  frozen : ∀ i j, s.IsCompiled i → s.Embeds i j → s.IsCompiled j
  /-- No mapper that is not compiled is in the way of a kept procedure. -/
  cached : ∀ i p, (s.mapper i).compiled = some p →
    ∀ stack keys, (∀ j ∈ stack, ¬ s.IsCompiled j) → s.build stack keys i = .ok p

/-- What a compilation inside the mappers of a stack may change of a store. -/
structure Advances (stack : List MapperId) (s t : Store) : Prop where
  forget : t.forget = s.forget
  coherent : t.Coherent
  entered : ∀ j ∈ stack, ¬ t.IsCompiled j
  kept : ∀ j, s.IsCompiled j → t.IsCompiled j

variable {s t u : Store} {stack : List MapperId} {id : MapperId} {p : Procedure}

theorem Advances.refl (hs : s.Coherent) (hstack : ∀ j ∈ stack, ¬ s.IsCompiled j) :
    s.Advances stack s :=
  ⟨rfl, hs, hstack, fun _ => id⟩

theorem Advances.trans (hst : s.Advances stack t) (htu : t.Advances stack u) :
    s.Advances stack u where
  forget := htu.forget.trans hst.forget
  coherent := htu.coherent
  entered := htu.entered
  kept := fun j hj => htu.kept j (hst.kept j hj)

theorem Coherent.build_eq_ok (hs : s.Coherent) {stack' : List MapperId} {keys keys' : List String}
    (hid : ¬ s.IsCompiled id) (hchildren : ∀ j, s.Embeds id j → s.IsCompiled j)
    (hstack : ∀ j ∈ stack, ¬ s.IsCompiled j) (hmem : id ∉ stack)
    (hstack' : ∀ j ∈ stack', ¬ s.IsCompiled j) (hmem' : id ∉ stack')
    (hp : s.build stack keys id = .ok p) : s.build stack' keys' id = .ok p := by
  have hcons : ∀ j ∈ id :: stack, ¬ s.IsCompiled j := List.forall_mem_cons.mpr ⟨hid, hstack⟩
  have hcons' : ∀ j ∈ id :: stack', ¬ s.IsCompiled j := List.forall_mem_cons.mpr ⟨hid, hstack'⟩
  rw [build_of_not_mem hmem] at hp
  rw [build_of_not_mem hmem']
  obtain ⟨fields, hfields, rfl⟩ := map_eq_ok_iff.mp hp
  refine congrArg (Procedure.mk _ <$> ·) (buildBindings_eq_ok_congr _ _ ?_ hfields)
  intro j hj keys keys' q hq
  obtain ⟨q', hq'⟩ := isCompiled_iff.mp (hchildren j hj)
  have heq := hs.cached j q' hq' _ keys hcons
  rw [← Except.ok.inj (heq.symm.trans hq)]
  exact hs.cached j q' hq' _ keys' hcons'

/-- A procedure that was built may be kept, once all mappers that it embeds are compiled. -/
theorem Coherent.publish (hs : s.Coherent) {keys : List String} (hlt : id < s.size)
    (hid : ¬ s.IsCompiled id) (hchildren : ∀ j, s.Embeds id j → s.IsCompiled j)
    (hstack : ∀ j ∈ stack, ¬ s.IsCompiled j) (hmem : id ∉ stack)
    (hp : s.build stack keys id = .ok p) : (s.publish id p).Coherent := by
  have hforget : (s.publish id p).forget = s.forget := forget_publish
  refine ⟨fun i => ?_, fun i j hi hij => ?_, fun i q hq stack' keys' hstack' => ?_⟩
  · rw [config_eq_of_forget hforget, size_eq_of_forget hforget]
    exact hs.closed i
  · rw [embeds_iff_of_forget hforget] at hij
    rw [isCompiled_publish hlt] at hi ⊢
    rcases hi with rfl | hi
    · exact Or.inr (hchildren j hij)
    · exact Or.inr (hs.frozen i j hi hij)
  · simp only [isCompiled_publish hlt, not_or] at hstack'
    rw [build_eq_of_forget hforget]
    rw [mapper_publish hlt] at hq
    split at hq
    · rename_i hi
      subst hi
      obtain rfl := Option.some.inj hq
      exact hs.build_eq_ok hid hchildren hstack hmem (fun j hj => (hstack' j hj).2)
        (fun hi => (hstack' i hi).1 rfl) hp
    · exact hs.cached i q hq stack' keys' fun j hj => (hstack' j hj).2

theorem Advances.leave (hst : s.Advances (id :: stack) t) : s.Advances stack t :=
  ⟨hst.forget, hst.coherent, fun j hj => hst.entered j (List.mem_cons_of_mem _ hj), hst.kept⟩

theorem Advances.publish (hst : s.Advances (id :: stack) t) {keys : List String} (hlt : id < s.size)
    (hmem : id ∉ stack) (hchildren : ∀ j, s.Embeds id j → t.IsCompiled j)
    (hp : s.build stack keys id = .ok p) : s.Advances stack (t.publish id p) := by
  have hlt' : id < t.size := by rwa [size_eq_of_forget hst.forget]
  have hleave := hst.leave
  refine ⟨forget_publish.trans hst.forget, ?_, fun j hj => ?_, fun j hj => ?_⟩
  · rw [← build_eq_of_forget hst.forget] at hp
    exact hst.coherent.publish hlt' (hst.entered id List.mem_cons_self)
      (fun j hj => hchildren j ((embeds_iff_of_forget hst.forget).mp hj)) hleave.entered hmem hp
  · rw [isCompiled_publish hlt', not_or]
    exact ⟨fun h => hmem (h ▸ hj), hleave.entered j hj⟩
  · exact (isCompiled_publish hlt').mpr (Or.inr (hst.kept j hj))

end Store

namespace Compiler

variable {α β : Type}

theorem run_bind (act : Compiler α) (f : α → Compiler β) (s : Session) :
    (act >>= f).run s =
      match act.run s with
      | (.ok a, t) => (f a).run t
      | (.error e, t) => (.error e, t) := by
  rw [ExceptT.run_bind]
  simp only [bind, StateT.bind]
  rcases act.run s with ⟨r, t⟩
  cases r <;> rfl

theorem run_get (s : Session) : (get : Compiler Session).run s = (.ok s, s) := rfl

/--
Inside the mappers of a stack, a computation does what a function of the target
keys says. It leaves the session as it was but for newly compiled mappers, among
which are those of a list if it succeeds.
-/
def Computes (base : Store) (stack made : List MapperId) (act : Compiler α)
    (spec : List String → Except Error α) : Prop :=
  ∀ s keys, s.forget = base.forget → s.Coherent → (∀ j ∈ stack, ¬ s.IsCompiled j) →
    ∃ t, act.run ⟨s, stack, keys⟩ = (spec keys.reverse, ⟨t, stack, keys⟩) ∧
      s.Advances stack t ∧ ∀ a, spec keys.reverse = .ok a → ∀ j ∈ made, t.IsCompiled j

variable {base : Store} {stack made made' : List MapperId} {act : Compiler α}
  {spec : List String → Except Error α}

theorem Computes.of_run {r : Except Error α} (h : ∀ s, act.run s = (r, s)) :
    Computes base stack [] act fun _ => r := by
  intro s keys _ hs hstack
  exact ⟨s, h _, .refl hs hstack, by simp⟩

theorem Computes.pure (a : α) : Computes base stack [] (pure a) fun _ => .ok a :=
  .of_run fun _ => rfl

theorem Computes.readPath (text : String) :
    Computes base stack [] (readPath text) fun _ => Path.read text :=
  .of_run fun _ => rfl

theorem Computes.bind {f : α → Compiler β} {spec' : α → List String → Except Error β}
    (h : Computes base stack made act spec) (hf : ∀ a, Computes base stack made' (f a) (spec' a)) :
    Computes base stack (made ++ made') (act >>= f) fun keys => spec keys >>= (spec' · keys) := by
  intro s keys hbase hs hstack
  obtain ⟨t, hrun, hst, hmade⟩ := h s keys hbase hs hstack
  simp only [run_bind, hrun]
  cases hspec : spec keys.reverse with
  | error e => exact ⟨t, rfl, hst, fun _ h => by simp at h⟩
  | ok a =>
    obtain ⟨u, hrun', htu, hmade'⟩ := hf a t keys (hst.forget.trans hbase) hst.coherent hst.entered
    refine ⟨u, hrun', hst.trans htu, fun b hb j hj => ?_⟩
    rcases List.mem_append.mp hj with hj | hj
    · exact htu.kept j (hmade a hspec j hj)
    · exact hmade' b hb j hj

theorem Computes.of_subset (h : Computes base stack made act spec) (hsub : made' ⊆ made) :
    Computes base stack made' act spec := by
  intro s keys hbase hs hstack
  obtain ⟨t, hrun, hst, hmade⟩ := h s keys hbase hs hstack
  exact ⟨t, hrun, hst, fun a ha j hj => hmade a ha j (hsub hj)⟩

theorem Computes.map (h : Computes base stack made act spec) (f : α → β) :
    Computes base stack made (f <$> act) fun keys => f <$> spec keys := by
  rw [← bind_pure_comp]
  exact (h.bind fun a => .pure (f a)).of_subset (by simp)

theorem Computes.withKey (h : Computes base stack made act spec) (key : String) :
    Computes base stack made (withKey key act) fun keys => spec (keys ++ [key]) := by
  intro s keys hbase hs hstack
  obtain ⟨t, hrun, hst, hmade⟩ := h s (key :: keys) hbase hs hstack
  rw [List.reverse_cons] at hrun hmade
  refine ⟨t, ?_, hst, hmade⟩
  simp only [Compiler.withKey, ExceptT.run_mk, hrun, List.tail_cons]

end Compiler

end Reshape
