import Reshape.Proofs.Composition.Visits

/-! # Completed mappers

A compilation that fails may have compiled embedded mappers before. It leaves
those compiled that its walk has completed: the ones which are embedded before
the first offence and have none inside.
-/

namespace Reshape

def Visit.Embeds (v : Visit) (id : MapperId) : Prop := ∃ source, v.binding = .mapper id source

def beforeOffence (visits : List Visit) : List Visit := visits.takeWhile (·.offence?.isNone)

section BeforeOffence

variable {v : Visit} {visits others : List Visit}

theorem beforeOffence_cons_of_none (h : v.offence? = none) :
    beforeOffence (v :: visits) = v :: beforeOffence visits :=
  List.takeWhile_cons_of_pos (by simp [h])

theorem beforeOffence_cons_of_ne_none (h : v.offence? ≠ none) : beforeOffence (v :: visits) = [] :=
  List.takeWhile_cons_of_neg (by simpa using h)

theorem mem_of_mem_beforeOffence (h : v ∈ beforeOffence visits) : v ∈ visits :=
  (List.takeWhile_sublist _).subset h

theorem mem_beforeOffence_append :
    v ∈ beforeOffence (visits ++ others) ↔
      v ∈ beforeOffence visits ∨ Inoffensive visits ∧ v ∈ beforeOffence others := by
  induction visits with
  | nil => simp [beforeOffence, Inoffensive]
  | cons first rest ih =>
    rw [List.cons_append, inoffensive_cons]
    by_cases h : first.offence? = none
    · rw [beforeOffence_cons_of_none h, beforeOffence_cons_of_none h, List.mem_cons, List.mem_cons,
        ih]
      simp only [h, true_and, or_assoc]
    · rw [beforeOffence_cons_of_ne_none h, beforeOffence_cons_of_ne_none h]
      simp [h]

end BeforeOffence

/-- Before the first offence, visits enter a mapper in which there is none. -/
def Store.Completes (s : Store) (visits : List Visit) (id : MapperId) : Prop :=
  ∃ v ∈ beforeOffence visits, v.Embeds id ∧ s.Sound v.mappers id

section Completes

variable {s : Store} {visits others : List Visit} {id : MapperId}

theorem Store.not_completes_nil : ¬ s.Completes [] id := by
  rintro ⟨v, hv, _⟩
  cases hv

theorem Store.completes_cons {v : Visit} :
    s.Completes (v :: visits) id ↔
      v.offence? = none ∧ (v.Embeds id ∧ s.Sound v.mappers id ∨ s.Completes visits id) := by
  by_cases h : v.offence? = none
  · simp only [Completes, beforeOffence_cons_of_none h, List.mem_cons, exists_eq_or_imp, h,
      true_and]
  · simp [Completes, beforeOffence_cons_of_ne_none h, h]

theorem Store.completes_append :
    s.Completes (visits ++ others) id ↔
      s.Completes visits id ∨ Inoffensive visits ∧ s.Completes others id := by
  simp only [Completes, mem_beforeOffence_append, or_and_right, exists_or, and_assoc,
    exists_and_left]

end Completes

theorem Store.Coherent.isCompiled_of_reaches {s : Store} {i j : MapperId} (hs : s.Coherent)
    (hi : s.IsCompiled i) (h : s.Reaches i j) : s.IsCompiled j := by
  induction h with
  | refl => exact hi
  | tail _ hstep ih => exact hs.frozen _ _ ih hstep

section Ancestors

variable {inside : List String → MapperId → List Visit} {stack : List MapperId} {v : Visit}
  {j : MapperId}

mutual

theorem Binding.exists_of_visits_embeds (binding : Binding) {keys : List String}
    (h : v ∈ binding.visits inside stack keys) (hv : v.Embeds j) :
    v.mappers = stack ∧ j ∈ binding.embedded ∨
      ∃ i ∈ binding.embedded, ∃ keys, v ∈ inside keys i := by
  cases binding with
  | path text shape =>
    obtain ⟨source, hsource⟩ := hv
    rw [List.mem_singleton.mp h] at hsource
    cases hsource
  | transform f =>
    obtain ⟨source, hsource⟩ := hv
    rw [List.mem_singleton.mp h] at hsource
    cases hsource
  | mapper id source =>
    rcases List.mem_cons.mp h with rfl | h
    · obtain ⟨source, hsource⟩ := hv
      obtain ⟨rfl, _⟩ := Binding.mapper.inj hsource
      exact .inl ⟨rfl, mem_embedded_mapper id _⟩
    · exact .inr ⟨id, mem_embedded_mapper id source, keys, h⟩
  | tree bindings =>
    rcases List.mem_cons.mp h with rfl | h
    · obtain ⟨source, hsource⟩ := hv
      cases hsource
    · exact exists_of_visitsIn_embeds bindings h hv

theorem exists_of_visitsIn_embeds (bindings : List (String × Binding)) {keys : List String}
    (h : v ∈ visitsIn inside stack keys bindings) (hv : v.Embeds j) :
    v.mappers = stack ∧ j ∈ embeddedIn bindings ∨
      ∃ i ∈ embeddedIn bindings, ∃ keys, v ∈ inside keys i := by
  match bindings with
  | [] => cases h
  | (key, binding) :: rest =>
    rcases List.mem_append.mp h with h | h
    · refine (binding.exists_of_visits_embeds h hv).imp ?_ ?_
      · exact fun ⟨hstack, hj⟩ => ⟨hstack, List.mem_append_left _ hj⟩
      · exact fun ⟨i, hi, hinside⟩ => ⟨i, List.mem_append_left _ hi, hinside⟩
    · refine (exists_of_visitsIn_embeds rest h hv).imp ?_ ?_
      · exact fun ⟨hstack, hj⟩ => ⟨hstack, List.mem_append_right _ hj⟩
      · exact fun ⟨i, hi, hinside⟩ => ⟨i, List.mem_append_right _ hi, hinside⟩

end

variable {s : Store}

theorem Store.leads_of_visits_embeds {keys : List String} {id : MapperId}
    (h : v ∈ s.visits stack keys id) (hv : v.Embeds j) :
    Relation.TransGen s.Embeds id j ∧
      ∀ k ∈ v.mappers, k ∈ stack ∨ Relation.TransGen s.Embeds k j := by
  induction stack, id using s.entering_induction generalizing keys with
  | entered stack id hmem =>
    rw [visits_of_mem hmem] at h
    cases h
  | enter stack id hmem ih =>
    rw [visits_of_not_mem hmem] at h
    have hself : Relation.TransGen s.Embeds id j ∧
        ∀ k ∈ v.mappers, k ∈ id :: stack ∨ Relation.TransGen s.Embeds k j := by
      rcases exists_of_visitsIn_embeds _ h hv with ⟨hmappers, hj⟩ | ⟨i, hi, keys, hinside⟩
      · exact ⟨.single hj, fun k hk => .inl (hmappers ▸ hk)⟩
      · obtain ⟨hlead, hmappers⟩ := ih i hi hinside
        exact ⟨.head hi hlead, hmappers⟩
    refine ⟨hself.1, fun k hk => ?_⟩
    rcases hself.2 k hk with hk | hk
    · rcases List.mem_cons.mp hk with rfl | hk
      · exact .inr hself.1
      · exact .inl hk
    · exact .inr hk

theorem Store.sound_mappers_iff {keys : List String} {id : MapperId}
    (h : v ∈ s.visits [] keys id) (hv : v.Embeds j) : s.Sound v.mappers j ↔ s.Sound [] j := by
  refine ⟨fun hsound i hi => ?_, fun hsound i hi => ?_⟩
  · obtain ⟨hread, _, hcycle⟩ := hsound i hi
    exact ⟨hread, List.not_mem_nil, hcycle⟩
  · obtain ⟨hread, _, hcycle⟩ := hsound i hi
    refine ⟨hread, fun hmem => hcycle ?_, hcycle⟩
    rcases (leads_of_visits_embeds h hv).2 i hmem with hnil | hlead
    · cases hnil
    · exact hlead.trans_left hi

end Ancestors

namespace Compiler

variable {α β : Type} {base : Store} {stack : List MapperId} {act : Compiler α}

/-- Inside the mappers of a stack, a computation compiles what a function of the keys tells. -/
def Leaves (base : Store) (stack : List MapperId) (act : Compiler α)
    (completed : List String → MapperId → Prop) : Prop :=
  ∀ s keys, s.forget = base.forget → s.Coherent → (∀ j ∈ stack, ¬ s.IsCompiled j) →
    ∀ j, (act.run ⟨s, stack, keys⟩).2.store.IsCompiled j ↔ s.IsCompiled j ∨ completed keys.reverse j

variable {completed completed' : List String → MapperId → Prop}

theorem Leaves.of_run {r : Except Error α} (h : ∀ s, act.run s = (r, s)) :
    Leaves base stack act fun _ _ => False := by
  intro s keys _ _ _ j
  rw [h, or_false]

theorem Leaves.pure (a : α) : Leaves base stack (pure a) fun _ _ => False :=
  .of_run fun _ => rfl

theorem Leaves.readPath (text : String) : Leaves base stack (readPath text) fun _ _ => False :=
  .of_run fun _ => rfl

theorem Leaves.congr (h : Leaves base stack act completed)
    (hcompleted : ∀ keys j, completed keys j ↔ completed' keys j) :
    Leaves base stack act completed' := by
  intro s keys hbase hs hstack j
  rw [← hcompleted]
  exact h s keys hbase hs hstack j

theorem Leaves.bind {made : List MapperId} {spec : List String → Except Error α}
    {f : α → Compiler β} (h : Leaves base stack act completed)
    (hact : Computes base stack made act spec) (hf : ∀ a, Leaves base stack (f a) completed') :
    Leaves base stack (act >>= f) fun keys j =>
      completed keys j ∨ failure? (spec keys) = none ∧ completed' keys j := by
  intro s keys hbase hs hstack j
  obtain ⟨t, hrun, hst, _⟩ := hact s keys hbase hs hstack
  have hleft := h s keys hbase hs hstack j
  rw [hrun] at hleft
  simp only [run_bind, hrun]
  cases hspec : spec keys.reverse with
  | error e =>
    simp only [hleft, failure?_error, reduceCtorEq, false_and, or_false]
  | ok a =>
    rw [hf a t keys (hst.forget.trans hbase) hst.coherent hst.entered j, hleft, or_assoc,
      failure?_ok]
    simp

theorem Leaves.map (h : Leaves base stack act completed) (f : α → β) :
    Leaves base stack (f <$> act) completed := by
  intro s keys hbase hs hstack j
  rw [← h s keys hbase hs hstack j, ← bind_pure_comp, run_bind]
  rcases act.run ⟨s, stack, keys⟩ with ⟨r, t⟩
  cases r <;> rfl

theorem Leaves.withKey (h : Leaves base stack act completed) (key : String) :
    Leaves base stack (withKey key act) fun keys => completed (keys ++ [key]) := by
  intro s keys hbase hs hstack j
  have hleft := h s (key :: keys) hbase hs hstack j
  rwa [List.reverse_cons] at hleft

end Compiler

open Compiler

section Bindings

variable {base : Store} {stack : List MapperId} {embed : MapperId → Compiler Procedure}
  {mode : Mode}

/-- A mapper is left compiled if nothing is wrong with it, and those inside that are completed. -/
def Store.Leaving (base : Store) (stack : List MapperId) (id : MapperId) (keys : List String)
    (j : MapperId) : Prop :=
  j = id ∧ base.Sound stack id ∨ base.Completes (base.visits stack keys id) j

theorem Store.Leaving.not_mem {id j : MapperId} {keys : List String}
    (h : base.Leaving stack id keys j) : id ∉ stack := by
  intro hmem
  rcases h with ⟨_, hsound⟩ | hinside
  · exact (Store.sound_iff.mp hsound).2.1 hmem
  · rw [Store.visits_of_mem hmem] at hinside
    exact Store.not_completes_nil hinside

theorem Store.completes_mapper_iff {id j : MapperId} {keys : List String}
    {source : Option String} :
    base.Completes (⟨keys, stack, .mapper id source⟩ :: base.visits stack keys id) j ↔
      failure? (readSource source) = none ∧ base.Leaving stack id keys j := by
  have hembeds : (Visit.mk keys stack (.mapper id source)).Embeds j ↔ j = id := by
    simp [Visit.Embeds, eq_comm]
  have hinside : j = id ∧ base.Sound stack j ∨ base.Completes (base.visits stack keys id) j ↔
      base.Leaving stack id keys j :=
    or_congr_left (and_congr_right fun h => by rw [h])
  rw [Store.completes_cons, hembeds, hinside, Visit.offence?, Option.or_eq_none_iff,
    reentered?_eq_none_iff, failure?_readSource, and_assoc, and_congr_right_iff]
  exact fun _ => and_iff_right_of_imp Store.Leaving.not_mem

mutual

theorem Binding.compile_leaves (binding : Binding) (defaults : Defaults) (key : String)
    (h : ∀ j ∈ binding.embedded, Computes base stack [j] (embed j) (base.build stack · j) ∧
      Leaves base stack (embed j) (base.Leaving stack j)) :
    Leaves base stack (binding.compile embed mode defaults key) fun keys =>
      base.Completes (binding.visits (base.visits stack) stack keys) := by
  cases binding with
  | path text shape =>
    refine ((Leaves.readPath text).bind (.readPath text) fun _ => .pure _).congr fun keys j => ?_
    simp [Binding.visits, Store.completes_cons, Visit.Embeds, Store.not_completes_nil]
  | transform f =>
    refine (Leaves.pure (Plan.transform f)).congr fun keys j => ?_
    simp [Binding.visits, Store.completes_cons, Visit.Embeds, Store.not_completes_nil]
  | mapper id source =>
    obtain ⟨hid, hleaves⟩ := h id (mem_embedded_mapper id source)
    have hat : ∀ at?, Leaves base stack (do return Plan.mapper (← embed id) at?)
        (base.Leaving stack id) :=
      fun at? => (hleaves.bind hid fun p => .pure (Plan.mapper p at?)).congr (by simp)
    have hread : Leaves base stack ((Binding.mapper id source).compile embed mode defaults key)
        fun keys j => failure? (readSource source) = none ∧ base.Leaving stack id keys j := by
      cases source with
      | none => exact ((Leaves.pure none).bind (.pure none) hat).congr (by simp [readSource])
      | some text =>
        have hpath : Leaves base stack (some <$> readPath text) fun _ _ => False :=
          (Leaves.readPath text).map some
        refine (hpath.bind ((Computes.readPath text).map some) hat).congr fun keys j => ?_
        rw [false_or]
        rfl
    exact hread.congr fun keys j => Store.completes_mapper_iff.symm
  | tree bindings =>
    have hb := compileBindings_leaves bindings (defaults.subtree key) h
    have hcomputes : Computes base stack (embeddedIn bindings)
        (compileBindings embed mode (defaults.subtree key) bindings)
        (buildBindings (base.build stack) mode (defaults.subtree key) · bindings) :=
      compileBindings_computes bindings (defaults.subtree key) fun j hj => (h j hj).1
    refine (hb.bind hcomputes fun fields => .pure (Plan.tree (.mk mode fields))).congr
      fun keys j => ?_
    simp [Binding.visits, Store.completes_cons, Visit.Embeds, Visit.offence?]

theorem compileBindings_leaves (bindings : List (String × Binding)) (defaults : Defaults)
    (h : ∀ j ∈ embeddedIn bindings, Computes base stack [j] (embed j) (base.build stack · j) ∧
      Leaves base stack (embed j) (base.Leaving stack j)) :
    Leaves base stack (compileBindings embed mode defaults bindings) fun keys =>
      base.Completes (visitsIn (base.visits stack) stack keys bindings) := by
  match bindings with
  | [] => exact (Leaves.pure []).congr fun keys j => (iff_false_intro Store.not_completes_nil).symm
  | (key, binding) :: rest =>
    obtain ⟨hbinding, hothers⟩ := forall_embeddedIn_cons.mp h
    have hb := (binding.compile_leaves defaults key hbinding).withKey key
    have hcomputes : Computes base stack binding.embedded
        (withKey key (binding.compile embed mode defaults key))
        fun keys => binding.build (base.build stack) mode defaults (keys ++ [key]) key :=
      (binding.compile_computes defaults key fun j hj => (hbinding j hj).1).withKey key
    have hrest := compileBindings_leaves rest defaults hothers
    have hcomputes' : Computes base stack (embeddedIn rest)
        (compileBindings embed mode defaults rest)
        (buildBindings (base.build stack) mode defaults · rest) :=
      compileBindings_computes rest defaults fun j hj => (hothers j hj).1
    rw [compileBindings_cons]
    refine (hb.bind hcomputes fun plan => hrest.bind hcomputes' fun fields =>
      .pure (Field.mk key plan (plan.default defaults key) :: fields)).congr fun keys j => ?_
    have hfailure : failure? (binding.build (base.build stack) mode defaults (keys ++ [key]) key) =
        (binding.visits (base.visits stack) stack (keys ++ [key])).findSome? Visit.offence? :=
      binding.failure?_build mode defaults (keys ++ [key]) key fun i _ keys => Store.failure?_build
    rw [visitsIn, Store.completes_append, hfailure, List.findSome?_eq_none_iff, and_false, or_false]
    rfl

end

theorem Configuration.compile_leaves (config : Configuration) (mode : Mode) (defaults : Defaults)
    (h : ∀ j ∈ config.embedded, Computes base stack [j] (embed j) (base.build stack · j) ∧
      Leaves base stack (embed j) (base.Leaving stack j)) :
    Leaves base stack (config.compile embed mode defaults) fun keys =>
      base.Completes (visitsIn (base.visits stack) stack keys config) :=
  (compileBindings_leaves config defaults h).map (Procedure.mk mode)

end Bindings

/-- A compilation completes the mappers that its walk completes. -/
theorem compileMapper_leaves {base : Store}
    (hclosed : ∀ i, (base.mapper i).config.Within base.size) (stack : List MapperId) (fuel : Nat)
    {id : MapperId} (hid : id < base.size) (hfuel : base.unentered stack ≤ fuel) :
    Leaves base stack (compileMapper fuel id) (base.Leaving stack id) := by
  induction stack, id using base.entering_induction generalizing fuel with
  | entered stack id hmem =>
    intro s keys hbase hs hstack j
    have hc : (s.mapper id).compiled = none := by
      simpa [Store.isCompiled_iff, Option.eq_none_iff_forall_ne_some] using hstack id hmem
    rw [run_compileMapper_of_mem hc hmem]
    exact (or_iff_left fun h => h.not_mem hmem).symm
  | enter stack id hmem ih =>
    intro s keys hbase hs hstack j
    cases hc : (s.mapper id).compiled with
    | some p =>
      have hid' := Store.isCompiled_of_eq_some hc
      rw [run_compileMapper_of_some hc]
      refine (or_iff_left_of_imp ?_).symm
      rintro (⟨rfl, _⟩ | ⟨v, hv, hembeds, _⟩)
      · exact hid'
      · have hlead := (Store.leads_of_visits_embeds (mem_of_mem_beforeOffence hv) hembeds).1
        exact hs.isCompiled_of_reaches hid' (Relation.ReflTransGen.mono
          (fun _ _ => (Store.embeds_iff_of_forget hbase).mpr) _ _ hlead.to_reflTransGen)
    | none =>
      have hless := Store.unentered_cons_lt hmem hid
      obtain ⟨fuel, rfl⟩ : ∃ f, fuel = f + 1 := ⟨fuel - 1, by omega⟩
      have hun : ¬ s.IsCompiled id := by simp [Store.isCompiled_iff, hc]
      have hstack' : ∀ j ∈ id :: stack, ¬ s.IsCompiled j := List.forall_mem_cons.mpr ⟨hun, hstack⟩
      have hchildren : ∀ j ∈ (s.mapper id).config.embedded,
          Computes base (id :: stack) [j] (compileMapper fuel j) (base.build (id :: stack) · j) ∧
            Leaves base (id :: stack) (compileMapper fuel j) (base.Leaving (id :: stack) j) := by
        intro j hj
        rw [Store.config_eq_of_forget hbase] at hj
        have hfuel' : base.unentered (id :: stack) ≤ fuel := by omega
        exact ⟨compileMapper_computes hclosed (id :: stack) fuel (hclosed id j hj) hfuel',
          ih j hj fuel (hclosed id j hj) hfuel'⟩
      obtain ⟨t, hrun, hst, _⟩ := (s.mapper id).config.compile_computes (s.mapper id).mode
        (s.mapper id).defaults (fun j hj => (hchildren j hj).1) s keys hbase hs hstack'
      have hleft := (s.mapper id).config.compile_leaves (s.mapper id).mode (s.mapper id).defaults
        hchildren s keys hbase hs hstack' j
      have hbuild : (s.mapper id).config.build (base.build (id :: stack)) (s.mapper id).mode
          (s.mapper id).defaults keys.reverse = base.build stack keys.reverse id := by
        rw [← Store.build_eq_of_forget hbase, Store.build_of_not_mem hmem]
        congr 1
        funext keys j
        exact (Store.build_eq_of_forget hbase).symm
      dsimp only at hrun
      rw [hbuild] at hrun
      rw [hrun, Store.config_eq_of_forget hbase] at hleft
      dsimp only at hleft
      rw [← Store.visits_of_not_mem hmem] at hleft
      rw [run_compileMapper_of_not_mem fuel ⟨s, stack, keys⟩ hc hmem]
      dsimp only
      rw [hrun]
      have hsound : (∃ p, base.build stack keys.reverse id = .ok p) ↔ base.Sound stack id :=
        Store.build_eq_ok_iff
      cases hp : base.build stack keys.reverse id with
      | error e =>
        have hfails : ¬ base.Sound stack id := by
          rw [← hsound, hp]
          simp
        simpa [Store.Leaving, hfails] using hleft
      | ok p =>
        have hlt : id < t.size := by
          rwa [Store.size_eq_of_forget hst.forget, Store.size_eq_of_forget hbase]
        have hbuilt : base.Sound stack id := hsound.mp ⟨p, hp⟩
        rw [Store.isCompiled_publish hlt, hleft, Store.Leaving, and_iff_left hbuilt, or_left_comm]

namespace Store

variable {s : Store} {id j : MapperId}

theorem Coherent.isCompiled_compile (hs : s.Coherent) (hid : id < s.size) :
    (s.compile id).2.IsCompiled j ↔ s.IsCompiled j ∨ s.Leaving [] id [] j :=
  compileMapper_leaves hs.closed [] s.size hid (unentered_nil s).le s [] rfl hs (by simp) j

theorem Coherent.compile_eq_ok_iff (hs : s.Coherent) (hid : id < s.size) :
    (∃ p, (s.compile id).1 = .ok p) ↔ s.Sound [] id := by
  rw [hs.compile_eq_build hid, build_eq_ok_iff]

theorem Coherent.lt_size_of_leads (hs : s.Coherent) (h : Relation.TransGen s.Embeds id j) :
    j < s.size := by
  obtain ⟨i, _, hij⟩ := Relation.TransGen.tail'_iff.mp h
  exact hs.closed i j hij

/-- The walk of a mapper completes those that it meets before an offence and that compile. -/
theorem Coherent.completes_visits_iff (hs : s.Coherent) :
    s.Completes (s.visits [] [] id) j ↔
      (∃ p, (s.compile j).1 = .ok p) ∧ ∃ v ∈ beforeOffence (s.visits [] [] id), v.Embeds j := by
  have hiff : ∀ v ∈ beforeOffence (s.visits [] [] id), v.Embeds j →
      (s.Sound v.mappers j ↔ ∃ p, (s.compile j).1 = .ok p) := by
    intro v hv hembeds
    have hvisit := mem_of_mem_beforeOffence hv
    rw [hs.compile_eq_ok_iff (hs.lt_size_of_leads (leads_of_visits_embeds hvisit hembeds).1)]
    exact sound_mappers_iff hvisit hembeds
  constructor
  · rintro ⟨v, hv, hembeds, hsound⟩
    exact ⟨(hiff v hv hembeds).mp hsound, v, hv, hembeds⟩
  · rintro ⟨hcompile, v, hv, hembeds⟩
    exact ⟨v, hv, hembeds, (hiff v hv hembeds).mpr hcompile⟩

theorem exists_configure_eq_ok_iff (edit : Configuration → Configuration) :
    (∃ t, s.configure id edit = .ok t) ↔ ¬ s.IsCompiled id := by
  rw [configure, IsCompiled]
  split <;> simp [*]

/--
A failed compilation leaves compiled, besides what was so before, the mappers
that compile on their own and that a binding before the first offence embeds.
All mappers can be configured as before just if there are no such mappers but
compiled ones. A run that fails to compile does the same.
-/
theorem failed_compile_keeps_completed (hs : s.Reachable) (hid : id < s.size) {e : Error}
    (he : (s.compile id).1 = .error e) :
    (∀ source, s.execute id source = (.error e, (s.compile id).2)) ∧
    (∀ j, (s.compile id).2.IsCompiled j ↔ s.IsCompiled j ∨
      (∃ p, (s.compile j).1 = .ok p) ∧ ∃ v ∈ beforeOffence (s.visits [] [] id), v.Embeds j) ∧
    ((∀ j edit t, s.configure j edit = .ok t → ∃ u, (s.compile id).2.configure j edit = .ok u) ↔
      ∀ v ∈ beforeOffence (s.visits [] [] id), ∀ j, v.Embeds j →
        s.IsCompiled j ∨ ∃ e, (s.compile j).1 = .error e) := by
  have hfails : ¬ s.Sound [] id := by
    rw [← hs.coherent.compile_eq_ok_iff hid, he]
    simp
  have hleft : ∀ j, (s.compile id).2.IsCompiled j ↔ s.IsCompiled j ∨
      (∃ p, (s.compile j).1 = .ok p) ∧
        ∃ v ∈ beforeOffence (s.visits [] [] id), v.Embeds j := by
    intro j
    rw [hs.coherent.isCompiled_compile hid, ← hs.coherent.completes_visits_iff, Leaving]
    simp [hfails]
  refine ⟨fun source => ?_, hleft, fun h v hv j hembeds => ?_, fun h j edit t ht => ?_⟩
  · have hexecute : s.execute id source =
        ((s.compile id).1.bind (Procedure.run · source), (s.compile id).2) := rfl
    rw [hexecute, he]
    rfl
  · by_cases hj : s.IsCompiled j
    · exact .inl hj
    · obtain ⟨t, ht⟩ := (exists_configure_eq_ok_iff fun c => c).mpr hj
      have hun := (exists_configure_eq_ok_iff _).mp (h j _ t ht)
      rw [hleft] at hun
      cases hcompile : (s.compile j).1 with
      | error e => exact .inr ⟨e, rfl⟩
      | ok p => exact absurd (.inr ⟨⟨p, hcompile⟩, v, hv, hembeds⟩) hun
  · have hj := (exists_configure_eq_ok_iff _).mp ⟨t, ht⟩
    rw [exists_configure_eq_ok_iff, hleft]
    rintro (hc | ⟨⟨p, hp⟩, v, hv, hembeds⟩)
    · exact hj hc
    · rcases h v hv j hembeds with hc | ⟨e, he⟩
      · exact hj hc
      · rw [hp] at he
        cases he

/-- A mapper, one that embeds it before a third one, and this third one, which embeds the second. -/
def leafAndBack : Store :=
  (((Store.empty.after (.create [("name", .path "name" .nested)] .empty .safe)).after
    (.create [("leaf", .mapper 0 none)] .empty .safe)).after
      (.create [("part", .tree [("first", .mapper 1 none)])] .empty .failFast)).after
        (.configure 1 (·.put "back" (.mapper 2 none)))

theorem reachable_leafAndBack : leafAndBack.Reachable :=
  .step (.step (.step (.step .empty (by decide)) (by decide)) (by decide)) (by decide)

theorem failed_compile_keeps_completed_leafAndBack :
    let failed := (leafAndBack.compile 2).2
    (leafAndBack.compile 2).1 = .error (.circularMapper "part.first.back") ∧
      (∃ v ∈ beforeOffence (leafAndBack.visits [] [] 2), v.Embeds 0) ∧
      failed.IsCompiled 0 ∧ ¬ failed.IsCompiled 1 ∧
      ¬ ∀ v ∈ beforeOffence (leafAndBack.visits [] [] 2), ∀ j, v.Embeds j →
        leafAndBack.IsCompiled j ∨ ∃ e, (leafAndBack.compile j).1 = .error e := by
  have herror : (leafAndBack.compile 2).1 = .error (.circularMapper "part.first.back") :=
    failure?_eq_some_iff.mp (by decide +kernel)
  obtain ⟨_, hleft, hconfigure⟩ :=
    failed_compile_keeps_completed reachable_leafAndBack (by decide) herror
  have hun : ¬ leafAndBack.IsCompiled 0 := by decide
  have hleaf : (leafAndBack.compile 2).2.IsCompiled 0 := by decide +kernel
  obtain ⟨_, hvisit⟩ := ((hleft 0).mp hleaf).resolve_left hun
  refine ⟨herror, hvisit, hleaf, by decide +kernel, fun h => ?_⟩
  obtain ⟨t, ht⟩ := (exists_configure_eq_ok_iff fun c => c).mpr hun
  exact (exists_configure_eq_ok_iff _).mp (hconfigure.mpr h 0 _ t ht) hleaf

/-- A mapper that can be compiled, and one that embeds it before a path that cannot be read. -/
def halfReadable : Store :=
  (Store.empty.after (.create [("name", .path "name" .nested)] .empty .safe)).after
    (.create [("child", .mapper 0 none), ("name", .path "first..name" .nested)] .empty .safe)

/-- The compilation fails at the path, but the embedded mapper can no longer be configured. -/
theorem failed_compile_freezes_child :
    let failed := (halfReadable.compile 1).2
    halfReadable.Reachable ∧
      (halfReadable.compile 1).1 = .error (.invalidPath "first..name" (.emptySegment 6)) ∧
      ¬ halfReadable.IsCompiled 0 ∧ failed.IsCompiled 0 ∧ ¬ failed.IsCompiled 1 ∧
      ∀ edit, failed.configure 0 edit = .error .alreadyCompiled := by
  have hchild : (halfReadable.compile 1).2.IsCompiled 0 := by decide +kernel
  refine ⟨.step (.step .empty (by decide)) (by decide), ?_, by decide, hchild,
    by decide +kernel, fun edit => ?_⟩
  · exact failure?_eq_some_iff.mp (by decide +kernel)
  · exact if_pos hchild

end Store

end Reshape
