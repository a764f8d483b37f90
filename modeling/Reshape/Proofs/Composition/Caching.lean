import Reshape.Proofs.Composition.Context

/-! # Compiling is building

The compilation of a mapper in a coherent store answers what building it anew
answers. The number of mappers bounds how deep it goes, and it leaves the
session as it was but for newly compiled mappers.
-/

namespace Reshape

open Compiler

section Bindings

variable {base : Store} {stack : List MapperId} {embed : MapperId → Compiler Procedure}
  {e : List String → MapperId → Except Error Procedure} {mode : Mode}

theorem compileBindings_cons (defaults : Defaults) (key : String) (binding : Binding)
    (rest : List (String × Binding)) :
    compileBindings embed mode defaults ((key, binding) :: rest) =
      withKey key (binding.compile embed mode defaults key) >>= fun plan =>
        compileBindings embed mode defaults rest >>= fun fields =>
          pure (.mk key plan (plan.default defaults key) :: fields) := by
  rw [compileBindings]
  rfl

mutual

theorem Binding.compile_computes (binding : Binding) (defaults : Defaults) (key : String)
    (h : ∀ j ∈ binding.embedded, Computes base stack [j] (embed j) (e · j)) :
    Computes base stack binding.embedded (binding.compile embed mode defaults key)
      (binding.build e mode defaults · key) := by
  cases binding with
  | path text shape =>
    exact (Computes.readPath text).bind fun path => .pure (Plan.path path shape)
  | transform f => exact .pure (Plan.transform f)
  | mapper id source =>
    have hid : Computes base stack [id] (embed id) (e · id) := h id (mem_embedded_mapper id source)
    have hat : ∀ at?, Computes base stack [id] (do return Plan.mapper (← embed id) at?)
        fun keys => do return Plan.mapper (← e keys id) at? :=
      fun at? => hid.bind fun p => .pure (Plan.mapper p at?)
    cases source with
    | none => exact (Computes.pure none).bind hat
    | some text => exact ((Computes.readPath text).map some).bind hat
  | tree bindings =>
    have hb := compileBindings_computes bindings (defaults.subtree key) h
    exact (hb.bind fun fields => .pure (Plan.tree (.mk mode fields))).of_subset
      (by simp [Binding.embedded])

theorem compileBindings_computes (bindings : List (String × Binding)) (defaults : Defaults)
    (h : ∀ j ∈ embeddedIn bindings, Computes base stack [j] (embed j) (e · j)) :
    Computes base stack (embeddedIn bindings) (compileBindings embed mode defaults bindings)
      (buildBindings e mode defaults · bindings) := by
  match bindings with
  | [] => exact .pure []
  | (key, binding) :: rest =>
    obtain ⟨hbinding, hothers⟩ := forall_embeddedIn_cons.mp h
    have hb := (binding.compile_computes defaults key hbinding).withKey key
    have hrest := compileBindings_computes rest defaults hothers
    have hall := hb.bind fun plan => hrest.bind fun fields =>
      .pure (Field.mk key plan (plan.default defaults key) :: fields)
    rw [compileBindings_cons]
    exact hall.of_subset (by simp [embeddedIn])

end

theorem Configuration.compile_computes (config : Configuration) (mode : Mode) (defaults : Defaults)
    (h : ∀ j ∈ config.embedded, Computes base stack [j] (embed j) (e · j)) :
    Computes base stack config.embedded (config.compile embed mode defaults)
      (config.build e mode defaults ·) :=
  (compileBindings_computes config defaults h).map (Procedure.mk mode)

end Bindings

/-- The fuel suffices if it is the number of mappers that are not entered. -/
theorem compileMapper_computes {base : Store}
    (hclosed : ∀ i, (base.mapper i).config.Within base.size) (stack : List MapperId) (fuel : Nat)
    {id : MapperId} (hid : id < base.size) (hfuel : base.unentered stack ≤ fuel) :
    Computes base stack [id] (compileMapper fuel id) (base.build stack · id) := by
  induction stack, id using base.entering_induction generalizing fuel with
  | entered stack id hmem =>
    intro s keys hbase hs hstack
    have hc : (s.mapper id).compiled = none := by
      simpa [Store.isCompiled_iff, Option.eq_none_iff_forall_ne_some] using hstack id hmem
    dsimp only
    rw [Store.build_of_mem hmem]
    exact ⟨s, run_compileMapper_of_mem hc hmem, .refl hs hstack, fun _ h => by cases h⟩
  | enter stack id hmem ih =>
    intro s keys hbase hs hstack
    have hlt : id < s.size := by rwa [Store.size_eq_of_forget hbase]
    dsimp only
    rw [← Store.build_eq_of_forget hbase]
    cases hc : (s.mapper id).compiled with
    | some p =>
      have hp := hs.cached id p hc stack keys.reverse hstack
      refine ⟨s, by rw [run_compileMapper_of_some hc, hp], .refl hs hstack, fun _ _ j hj => ?_⟩
      rw [List.mem_singleton.mp hj]
      exact Store.isCompiled_of_eq_some hc
    | none =>
      have hless := Store.unentered_cons_lt hmem hid
      obtain ⟨fuel, rfl⟩ : ∃ f, fuel = f + 1 := ⟨fuel - 1, by omega⟩
      have hun : ¬ s.IsCompiled id := by simp [Store.isCompiled_iff, hc]
      have hchildren : ∀ j ∈ (s.mapper id).config.embedded,
          Computes base (id :: stack) [j] (compileMapper fuel j) (s.build (id :: stack) · j) := by
        intro j hj
        simp only [Store.build_eq_of_forget hbase]
        rw [Store.config_eq_of_forget hbase] at hj
        exact ih j hj _ (hclosed id j hj) (by omega)
      obtain ⟨t, hrun, hst, hmade⟩ :=
        (s.mapper id).config.compile_computes (s.mapper id).mode (s.mapper id).defaults hchildren
          s keys hbase hs (List.forall_mem_cons.mpr ⟨hun, hstack⟩)
      dsimp only at hrun hmade
      rw [← Store.build_of_not_mem hmem] at hrun hmade
      have hrun' := run_compileMapper_of_not_mem fuel ⟨s, stack, keys⟩ hc hmem
      simp only [hrun] at hrun'
      rw [hrun']
      cases hp : s.build stack keys.reverse id with
      | error e => exact ⟨t, rfl, hst.leave, fun _ h => by cases h⟩
      | ok p =>
        have hlt' : id < t.size := by rwa [Store.size_eq_of_forget hst.forget]
        refine ⟨t.publish id p, rfl, hst.publish hlt hmem (hmade p hp) hp, fun _ _ j hj => ?_⟩
        rw [List.mem_singleton.mp hj]
        exact (Store.isCompiled_publish hlt').mpr (.inl rfl)

namespace Store

variable {s : Store} {id : MapperId}

theorem Coherent.runCompiler (hs : s.Coherent) {α : Type} {made : List MapperId} {act : Compiler α}
    {spec : List String → Except Error α} (h : Computes s [] made act spec) :
    ∃ t, s.runCompiler act = (spec [], t) ∧ s.Advances [] t ∧
      ∀ a, spec [] = .ok a → ∀ j ∈ made, t.IsCompiled j := by
  obtain ⟨t, hrun, hst, hmade⟩ := h s [] rfl hs (by simp)
  exact ⟨t, by rw [Store.runCompiler, hrun]; rfl, hst, hmade⟩

theorem Coherent.compile (hs : s.Coherent) (hid : id < s.size) :
    ∃ t, s.compile id = (s.build [] [] id, t) ∧ s.Advances [] t ∧
      ∀ p, s.build [] [] id = .ok p → t.IsCompiled id := by
  obtain ⟨t, hrun, hst, hmade⟩ := hs.runCompiler
    (compileMapper_computes hs.closed [] s.size hid (unentered_nil s).le)
  exact ⟨t, hrun, hst, fun p hp => hmade p hp id List.mem_cons_self⟩

theorem Coherent.compile_eq_build (hs : s.Coherent) (hid : id < s.size) :
    (s.compile id).1 = s.build [] [] id := by
  obtain ⟨t, hcompile, _⟩ := hs.compile hid
  rw [hcompile]

theorem Coherent.advances_compile (hs : s.Coherent) (hid : id < s.size) :
    s.Advances [] (s.compile id).2 := by
  obtain ⟨t, hcompile, hst, _⟩ := hs.compile hid
  rwa [hcompile]

theorem Coherent.compileConfiguration (hs : s.Coherent) {config : Configuration}
    (hconfig : config.Within s.size) (defaults : Defaults) (mode : Mode) :
    ∃ t, s.compileConfiguration config defaults mode =
      (config.build (s.build []) mode defaults [], t) ∧ s.Advances [] t := by
  obtain ⟨t, hrun, hst, _⟩ := hs.runCompiler (config.compile_computes mode defaults
    fun j hj => compileMapper_computes hs.closed [] s.size (hconfig j hj) (unentered_nil s).le)
  exact ⟨t, hrun, hst⟩

theorem Coherent.compileConfiguration_eq_build (hs : s.Coherent) {config : Configuration}
    (hconfig : config.Within s.size) (defaults : Defaults) (mode : Mode) :
    (s.compileConfiguration config defaults mode).1 =
      config.build (s.build []) mode defaults [] := by
  obtain ⟨t, hcompile, _⟩ := hs.compileConfiguration hconfig defaults mode
  rw [hcompile]

theorem Coherent.fields_of_compileConfiguration (hs : s.Coherent) {config : Configuration}
    (hconfig : config.Within s.size) {defaults : Defaults} {mode : Mode} {p : Procedure}
    (hp : (s.compileConfiguration config defaults mode).1 = .ok p) :
    ∃ fields, buildBindings (s.build []) mode defaults [] config = .ok fields ∧
      .mk mode fields = p := by
  rw [hs.compileConfiguration_eq_build hconfig] at hp
  exact Configuration.build_eq_ok_iff.mp hp

end Store

end Reshape
