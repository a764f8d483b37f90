import Reshape.Proofs.Composition.Session

/-! # The context of a compilation

Whether a computation succeeds or fails, it leaves the stacks of its session as
they were, and all configurations. So a compilation is never deeper than there
are mappers to enter, and any fuel beyond their number makes no difference.
-/

namespace Reshape

namespace Compiler

variable {α β : Type}

/-- A session that differs from another one only in the procedures that are kept. -/
structure Follows (s t : Session) : Prop where
  mappers : t.mappers = s.mappers
  keys : t.keys = s.keys
  forget : t.store.forget = s.store.forget

theorem Follows.refl (s : Session) : Follows s s := ⟨rfl, rfl, rfl⟩

theorem Follows.trans {s t u : Session} (hst : Follows s t) (htu : Follows t u) : Follows s u :=
  ⟨htu.mappers.trans hst.mappers, htu.keys.trans hst.keys, htu.forget.trans hst.forget⟩

/-- A computation leaves the stacks and the configurations as they are. -/
def Restores (act : Compiler α) : Prop := ∀ s, Follows s (act.run s).2

theorem Restores.pure (a : α) : Restores (pure a : Compiler α) := Follows.refl

theorem Restores.readPath (text : String) : Restores (readPath text) := Follows.refl

theorem Restores.get : Restores get := Follows.refl

theorem Restores.throw (e : Error) : Restores (throw e : Compiler α) := Follows.refl

theorem Restores.publish (id : MapperId) (p : Procedure) :
    Restores (modify fun s => { s with store := s.store.publish id p }) :=
  fun _ => ⟨rfl, rfl, Store.forget_publish⟩

theorem Restores.bind {act : Compiler α} {f : α → Compiler β} (h : Restores act)
    (hf : ∀ a, Restores (f a)) : Restores (act >>= f) := by
  intro s
  have hact := h s
  rw [run_bind]
  rcases hrun : act.run s with ⟨r, t⟩
  rw [hrun] at hact
  cases r with
  | error e => exact hact
  | ok a => exact hact.trans (hf a t)

theorem Restores.withKey {act : Compiler α} (h : Restores act) (key : String) :
    Restores (withKey key act) := by
  intro s
  have hact := h { s with keys := key :: s.keys }
  exact ⟨hact.mappers, congrArg List.tail hact.keys, hact.forget⟩

theorem Restores.withMapper {act : Compiler α} (h : Restores act) (id : MapperId) :
    Restores (withMapper id act) := by
  intro s
  simp only [Compiler.withMapper, ExceptT.run_mk]
  split
  · exact .refl s
  · have hact := h { s with mappers := id :: s.mappers }
    exact ⟨congrArg List.tail hact.mappers, hact.keys, hact.forget⟩

end Compiler

open Compiler

section Bindings

variable {embed embed' : MapperId → Compiler Procedure} {mode : Mode}

mutual

theorem Binding.compile_restores (h : ∀ j, Restores (embed j)) (binding : Binding)
    (defaults : Defaults) (key : String) : Restores (binding.compile embed mode defaults key) := by
  cases binding with
  | path text shape => exact (Restores.readPath text).bind fun _ => .pure _
  | transform f => exact .pure _
  | mapper id source =>
    have hat : ∀ at?, Restores (do return Plan.mapper (← embed id) at?) :=
      fun at? => (h id).bind fun _ => .pure _
    cases source with
    | none => exact (Restores.pure none).bind hat
    | some text => exact ((Restores.readPath text).bind fun _ => .pure _).bind hat
  | tree bindings =>
    exact (compileBindings_restores h bindings (defaults.subtree key)).bind fun _ => .pure _

theorem compileBindings_restores (h : ∀ j, Restores (embed j))
    (bindings : List (String × Binding)) (defaults : Defaults) :
    Restores (compileBindings embed mode defaults bindings) := by
  match bindings with
  | [] => exact .pure _
  | (key, binding) :: rest =>
    rw [compileBindings]
    exact ((binding.compile_restores h defaults key).withKey key).bind fun _ =>
      (compileBindings_restores h rest defaults).bind fun _ => .pure _

end

theorem Configuration.compile_restores (h : ∀ j, Restores (embed j)) (config : Configuration)
    (mode : Mode) (defaults : Defaults) : Restores (config.compile embed mode defaults) := by
  rw [Configuration.compile, ← bind_pure_comp]
  exact (compileBindings_restores h config defaults).bind fun _ => .pure _

end Bindings

section Run

variable {fuel : Nat} {id : MapperId} {s : Session}

theorem run_compileMapper_of_some {p : Procedure} (h : (s.store.mapper id).compiled = some p) :
    (compileMapper fuel id).run s = (.ok p, s) := by
  rw [compileMapper, run_bind, run_get]
  simp only [h]
  rfl

theorem run_compileMapper_of_mem (h : (s.store.mapper id).compiled = none)
    (hid : id ∈ s.mappers) :
    (compileMapper fuel id).run s = (.error (.circularMapper (currentField s)), s) := by
  rw [compileMapper, run_bind, run_get]
  simp only [h, withMapper, ExceptT.run_mk, hid, if_true]

theorem run_compileMapper_of_not_mem (fuel : Nat) (s : Session)
    (h : (s.store.mapper id).compiled = none) (hid : id ∉ s.mappers) :
    (compileMapper (fuel + 1) id).run s =
      let m := s.store.mapper id
      match (m.config.compile (compileMapper fuel) m.mode m.defaults).run
        { s with mappers := id :: s.mappers } with
      | (.ok p, t) => (.ok p, { t with store := t.store.publish id p, mappers := t.mappers.tail })
      | (.error e, t) => (.error e, { t with mappers := t.mappers.tail }) := by
  rw [compileMapper, run_bind, run_get]
  simp only [h, withMapper, ExceptT.run_mk, hid, if_false, run_bind]
  generalize ExceptT.run ((s.store.mapper id).config.compile (compileMapper fuel) _ _) _ = r
  rcases r with ⟨r, t⟩
  cases r <;> rfl

end Run

theorem compileMapper_restores (fuel : Nat) (id : MapperId) : Restores (compileMapper fuel id) := by
  induction fuel generalizing id with
  | zero =>
    rw [compileMapper]
    refine Restores.get.bind fun s => ?_
    dsimp only
    split
    · exact .pure _
    · exact (Restores.get.bind fun _ => .throw _).withMapper id
  | succ fuel ih =>
    rw [compileMapper]
    refine Restores.get.bind fun s => ?_
    dsimp only
    split
    · exact .pure _
    · have hconfig := (s.store.mapper id).config.compile_restores ih (s.store.mapper id).mode
        (s.store.mapper id).defaults
      exact (hconfig.bind fun p => (Restores.publish id p).bind fun _ => .pure p).withMapper id

section Fuel

variable {base : Store} {stack : List MapperId} {α β : Type}

/-- Two computations do the same in all sessions inside the mappers of a stack. -/
def Compiler.Agree (base : Store) (stack : List MapperId) (act act' : Compiler α) : Prop :=
  ∀ s : Session, s.store.forget = base.forget → s.mappers = stack → act.run s = act'.run s

theorem Compiler.Agree.bind {act act' : Compiler α} {f f' : α → Compiler β} (hact : Restores act)
    (h : Agree base stack act act') (hf : ∀ a, Agree base stack (f a) (f' a)) :
    Agree base stack (act >>= f) (act' >>= f') := by
  intro s hbase hstack
  have hfollows := hact s
  rw [run_bind, run_bind, ← h s hbase hstack]
  rcases hrun : act.run s with ⟨r, t⟩
  rw [hrun] at hfollows
  cases r with
  | error e => rfl
  | ok a => exact hf a t (hfollows.forget.trans hbase) (hfollows.mappers.trans hstack)

theorem Compiler.Agree.withKey {act act' : Compiler α} (h : Agree base stack act act')
    (key : String) : Agree base stack (withKey key act) (withKey key act') := by
  intro s hbase hstack
  simp only [Compiler.withKey, ExceptT.run_mk, h { s with keys := key :: s.keys } hbase hstack]

theorem Compiler.Agree.refl (act : Compiler α) : Agree base stack act act := fun _ _ _ => rfl

variable {embed embed' : MapperId → Compiler Procedure} {mode : Mode}

mutual

theorem Binding.compile_agree (hembed : ∀ j, Restores (embed j)) (binding : Binding)
    (defaults : Defaults) (key : String)
    (h : ∀ j ∈ binding.embedded, Agree base stack (embed j) (embed' j)) :
    Agree base stack (binding.compile embed mode defaults key)
      (binding.compile embed' mode defaults key) := by
  cases binding with
  | path text shape => exact .refl _
  | transform f => exact .refl _
  | mapper id source =>
    have hat : ∀ at?, Agree base stack (do return Plan.mapper (← embed id) at?)
        (do return Plan.mapper (← embed' id) at?) :=
      fun at? => .bind (hembed id) (h id (mem_embedded_mapper id source)) fun _ => .refl _
    cases source with
    | none => exact .bind (.pure none) (.refl _) hat
    | some text => exact .bind ((Restores.readPath text).bind fun _ => .pure _) (.refl _) hat
  | tree bindings =>
    exact .bind (compileBindings_restores hembed bindings (defaults.subtree key))
      (compileBindings_agree hembed bindings (defaults.subtree key) h) fun _ => .refl _

theorem compileBindings_agree (hembed : ∀ j, Restores (embed j))
    (bindings : List (String × Binding)) (defaults : Defaults)
    (h : ∀ j ∈ embeddedIn bindings, Agree base stack (embed j) (embed' j)) :
    Agree base stack (compileBindings embed mode defaults bindings)
      (compileBindings embed' mode defaults bindings) := by
  match bindings with
  | [] => exact .refl _
  | (key, binding) :: rest =>
    obtain ⟨hb, hrest⟩ := forall_embeddedIn_cons.mp h
    rw [compileBindings, compileBindings]
    refine .bind ((binding.compile_restores hembed defaults key).withKey key)
      ((binding.compile_agree hembed defaults key hb).withKey key) fun plan => ?_
    exact .bind (compileBindings_restores hembed rest defaults)
      (compileBindings_agree hembed rest defaults hrest) fun _ => .refl _

end

theorem Configuration.compile_agree (hembed : ∀ j, Restores (embed j)) (config : Configuration)
    (mode : Mode) (defaults : Defaults)
    (h : ∀ j ∈ config.embedded, Agree base stack (embed j) (embed' j)) :
    Agree base stack (config.compile embed mode defaults)
      (config.compile embed' mode defaults) := by
  rw [Configuration.compile, Configuration.compile, ← bind_pure_comp, ← bind_pure_comp]
  exact .bind (compileBindings_restores hembed config defaults)
    (compileBindings_agree hembed config defaults h) fun _ => .refl _

/-- Fuel beyond the number of mappers that are not entered makes no difference. -/
theorem compileMapper_agree (hclosed : ∀ i, (base.mapper i).config.Within base.size)
    {fuel fuel' : Nat} {id : MapperId} (hid : id < base.size)
    (hfuel : base.unentered stack ≤ fuel) (hfuel' : base.unentered stack ≤ fuel') :
    Agree base stack (compileMapper fuel id) (compileMapper fuel' id) := by
  induction stack, id using base.entering_induction generalizing fuel fuel' with
  | entered stack id hmem =>
    intro s hbase hstack
    rw [← hstack] at hmem
    cases hc : (s.store.mapper id).compiled with
    | some p => rw [run_compileMapper_of_some hc, run_compileMapper_of_some hc]
    | none => rw [run_compileMapper_of_mem hc hmem, run_compileMapper_of_mem hc hmem]
  | enter stack id hmem ih =>
    intro s hbase hstack
    cases hc : (s.store.mapper id).compiled with
    | some p => rw [run_compileMapper_of_some hc, run_compileMapper_of_some hc]
    | none =>
      have hless := Store.unentered_cons_lt hmem hid
      obtain ⟨fuel, rfl⟩ : ∃ f, fuel = f + 1 := ⟨fuel - 1, by omega⟩
      obtain ⟨fuel', rfl⟩ : ∃ f, fuel' = f + 1 := ⟨fuel' - 1, by omega⟩
      have hconfig : Agree base (id :: stack)
          ((s.store.mapper id).config.compile (compileMapper fuel) (s.store.mapper id).mode
            (s.store.mapper id).defaults)
          ((s.store.mapper id).config.compile (compileMapper fuel') (s.store.mapper id).mode
            (s.store.mapper id).defaults) := by
        refine Configuration.compile_agree (compileMapper_restores fuel) _ _ _ fun j hj => ?_
        rw [Store.config_eq_of_forget hbase] at hj
        exact ih j hj (hclosed id j hj) (by omega) (by omega)
      rw [← hstack] at hmem
      rw [run_compileMapper_of_not_mem fuel s hc hmem, run_compileMapper_of_not_mem fuel' s hc hmem]
      simp only [hconfig { s with mappers := id :: s.mappers } hbase (congrArg (id :: ·) hstack)]

end Fuel

end Reshape
