import Reshape.Proofs.Composition.Caching

/-! # Reachable stores

Callers create, configure, compile and run mappers in any order. Whatever
succeeds or fails on the way, the store stays coherent, so it makes no difference
which procedures it keeps.
-/

namespace Reshape

/-- What a caller does with the mappers of a store. -/
inductive Operation where
  | create (config : Configuration) (defaults : Defaults) (mode : Mode)
  | configure (id : MapperId) (edit : Configuration → Configuration)
  | compile (id : MapperId)
  | execute (id : MapperId) (source : Value)
  | compileConfiguration (config : Configuration) (defaults : Defaults) (mode : Mode)

def Operation.Valid (s : Store) : Operation → Prop
  | create config _ _ => config.Within s.size
  | configure id edit => id < s.size ∧ (edit (s.mapper id).config).Within s.size
  | compile id => id < s.size
  | execute id _ => id < s.size
  | compileConfiguration config _ _ => config.Within s.size

instance (s : Store) : (op : Operation) → Decidable (op.Valid s)
  | .create config _ _ => inferInstanceAs (Decidable (config.Within s.size))
  | .configure id edit =>
    inferInstanceAs (Decidable (id < s.size ∧ (edit (s.mapper id).config).Within s.size))
  | .compile id => inferInstanceAs (Decidable (id < s.size))
  | .execute id _ => inferInstanceAs (Decidable (id < s.size))
  | .compileConfiguration config _ _ => inferInstanceAs (Decidable (config.Within s.size))

namespace Store

/-- The store after an operation, whether that succeeds or fails. -/
def after (s : Store) : Operation → Store
  | .create config defaults mode => (s.add (.new config defaults mode)).2
  | .configure id edit =>
    match s.configure id edit with
    | .ok t => t
    | .error _ => s
  | .compile id => (s.compile id).2
  | .execute id source => (s.execute id source).2
  | .compileConfiguration config defaults mode => (s.compileConfiguration config defaults mode).2

/-- A store to which operations lead. -/
inductive Reachable : Store → Prop where
  | empty : Reachable .empty
  | step {s : Store} {op : Operation} : Reachable s → op.Valid s → Reachable (s.after op)

variable {s t : Store} {id : MapperId}

theorem Coherent.of_compiled_eq (hs : s.Coherent)
    (hclosed : ∀ i, (t.mapper i).config.Within t.size)
    (hst : ∀ i, s.IsCompiled i → t.IsCompiled i)
    (hts : ∀ i, t.IsCompiled i → t.mapper i = s.mapper i) : t.Coherent := by
  have hback : ∀ i, t.IsCompiled i → s.IsCompiled i := by
    intro i hi
    have hi' := hi
    rwa [IsCompiled, hts i hi] at hi'
  have hfrozen : ∀ i, t.IsCompiled i → ∀ j, t.Embeds i j → t.IsCompiled j := by
    intro i hi j hij
    rw [Embeds, hts i hi] at hij
    exact hst j (hs.frozen i j (hback i hi) hij)
  refine ⟨hclosed, fun i j hi => hfrozen i hi j, fun i p hp stack keys hstack => ?_⟩
  have hi := isCompiled_of_eq_some hp
  have hbuild : t.build stack keys i = s.build stack keys i :=
    build_congr t.IsCompiled hfrozen (fun i hi => by rw [hts i hi]) hi
  rw [hts i hi] at hp
  rw [hbuild]
  exact hs.cached i p hp stack keys fun j hj hc => hstack j hj (hst j hc)

theorem coherent_empty : Store.empty.Coherent := by
  have hmapper : ∀ i, Store.empty.mapper i = .new [] .empty .safe := fun i =>
    mapper_of_size_le (Nat.zero_le i)
  have hcompiled : ∀ i, ¬ Store.empty.IsCompiled i := fun i h =>
    Nat.not_lt_zero i (lt_size_of_isCompiled h)
  refine ⟨fun i j hj => ?_, fun i _ hi => absurd hi (hcompiled i), fun i p hp => ?_⟩
  · exact absurd (lt_size_of_embeds (s := .empty) hj) (Nat.not_lt_zero i)
  · exact absurd (isCompiled_of_eq_some hp) (hcompiled i)

theorem Coherent.add (hs : s.Coherent) {config : Configuration} (hconfig : config.Within s.size)
    (defaults : Defaults) (mode : Mode) : (s.add (.new config defaults mode)).2.Coherent := by
  have hnew : (s.add (.new config defaults mode)).2.mapper s.size = .new config defaults mode :=
    mapper_add_size
  refine hs.of_compiled_eq (fun i j hj => ?_) (fun i hi => ?_) fun i hi => ?_
  · rw [size_add]
    by_cases h : i = s.size
    · rw [h, hnew] at hj
      exact Nat.lt_succ_of_lt (hconfig j hj)
    · rw [mapper_add_of_ne h] at hj
      exact Nat.lt_succ_of_lt (hs.closed i j hj)
  · rwa [IsCompiled, mapper_add_of_ne (lt_size_of_isCompiled hi).ne]
  · refine mapper_add_of_ne fun h => ?_
    rw [IsCompiled, h, hnew] at hi
    cases hi

theorem Coherent.configure (hs : s.Coherent) {edit : Configuration → Configuration}
    (hid : id < s.size) (hedit : (edit (s.mapper id).config).Within s.size)
    (h : s.configure id edit = .ok t) : t.Coherent := by
  obtain ⟨hun, rfl⟩ := configure_eq_ok h
  have hself : ¬ (s.modify id fun m => { m with config := edit m.config }).IsCompiled id := by
    rwa [IsCompiled, mapper_modify_self _ hid]
  refine hs.of_compiled_eq (fun i j hj => ?_) (fun i hi => ?_) fun i hi => ?_
  · rw [size_modify]
    by_cases h : i = id
    · rw [h, mapper_modify_self _ hid] at hj
      exact hedit j hj
    · rw [mapper_modify_of_ne _ h] at hj
      exact hs.closed i j hj
  · have hne : i ≠ id := fun h => hun (h ▸ hi)
    rwa [IsCompiled, mapper_modify_of_ne _ hne]
  · exact mapper_modify_of_ne _ fun h => hself (h ▸ hi)

theorem Coherent.execute (hs : s.Coherent) (hid : id < s.size) (source : Value) :
    ∃ t, s.execute id source = ((s.build [] [] id).bind (Procedure.run · source), t) ∧
      s.Advances [] t := by
  obtain ⟨t, hcompile, hst, _⟩ := hs.compile hid
  exact ⟨t, by rw [Store.execute, hcompile], hst⟩

theorem Coherent.execute_of_build (hs : s.Coherent) (hid : id < s.size) {p : Procedure}
    (hp : s.build [] [] id = .ok p) (source : Value) : (s.execute id source).1 = p.run source := by
  obtain ⟨t, hexecute, _⟩ := hs.execute hid source
  rw [hexecute, hp]
  rfl

/-- Every operation keeps a store coherent. -/
theorem Coherent.after (hs : s.Coherent) {op : Operation} (hop : op.Valid s) :
    (s.after op).Coherent := by
  cases op with
  | create config defaults mode => exact hs.add hop defaults mode
  | configure id edit =>
    rw [Store.after]
    split
    · rename_i t ht
      exact hs.configure hop.1 hop.2 ht
    · exact hs
  | compile id =>
    obtain ⟨t, hcompile, hst, _⟩ := hs.compile hop
    rw [Store.after, hcompile]
    exact hst.coherent
  | execute id source =>
    obtain ⟨t, hexecute, hst⟩ := hs.execute hop source
    rw [Store.after, hexecute]
    exact hst.coherent
  | compileConfiguration config defaults mode =>
    obtain ⟨t, hcompile, hst⟩ := hs.compileConfiguration hop defaults mode
    rw [Store.after, hcompile]
    exact hst.coherent

theorem Reachable.coherent (hs : s.Reachable) : s.Coherent := by
  induction hs with
  | empty => exact coherent_empty
  | step _ hop ih => exact ih.after hop

theorem build_eq_of_reaches (h : ∀ j, s.Reaches id j → (t.mapper j).forget = (s.mapper j).forget)
    (stack : List MapperId) (keys : List String) :
    t.build stack keys id = s.build stack keys id := by
  symm
  refine build_congr (s.Reaches id) ?_ (fun j hj => (h j hj).symm) .refl
  intro i hi j hij
  exact hi.tail hij

/--
In every reachable store, compiled mappers embed compiled mappers only, and a
compilation answers what building anew from the current configurations answers.
What was compiled before makes no difference: where the mappers in reach have
the same configurations, compilations and runs have the same outcome.
-/
theorem caching_invisible (hs : s.Reachable) :
    (∀ i j, s.IsCompiled i → s.Embeds i j → s.IsCompiled j) ∧
    (∀ i < s.size, (s.compile i).1 = s.build [] [] i) ∧
    ∀ t : Store, t.Reachable → ∀ i, i < s.size → i < t.size →
      (∀ j, s.Reaches i j → (t.mapper j).forget = (s.mapper j).forget) →
      (t.compile i).1 = (s.compile i).1 ∧
      ∀ source, (t.execute i source).1 = (s.execute i source).1 := by
  refine ⟨hs.coherent.frozen, fun i hi => ?_, fun t ht i hi hi' hsame => ⟨?_, fun source => ?_⟩⟩
  · obtain ⟨u, hcompile, _⟩ := hs.coherent.compile hi
    rw [hcompile]
  · obtain ⟨u, hu, _⟩ := hs.coherent.compile hi
    obtain ⟨v, hv, _⟩ := ht.coherent.compile hi'
    rw [hu, hv, build_eq_of_reaches hsame]
  · obtain ⟨u, hu, _⟩ := hs.coherent.execute hi source
    obtain ⟨v, hv, _⟩ := ht.coherent.execute hi' source
    rw [hu, hv, build_eq_of_reaches hsame]

/-- A mapper that can be compiled, and one that embeds it and itself. -/
def selfEmbedding : Store :=
  ((Store.empty.after (.create [("name", .transform fun v => .ok (some v))] .empty .safe)).after
    (.create [("child", .mapper 0 none)] .empty .safe)).after
      (.configure 1 (·.put "me" (.mapper 1 none)))

theorem reachable_selfEmbedding : selfEmbedding.Reachable :=
  .step (.step (.step .empty (by decide)) (by decide)) (by decide)

theorem caching_invisible_selfEmbedding :
    let failed := selfEmbedding.after (.compile 1)
    failed.Reachable ∧ failed.IsCompiled 0 ∧ ¬ failed.IsCompiled 1 ∧
      failure? (failed.compile 1).1 = some (.circularMapper "me") ∧
      (failed.compile 1).1 = failed.build [] [] 1 ∧
      (selfEmbedding.compile 1).1 = (failed.compile 1).1 := by
  have hfailed : (selfEmbedding.after (.compile 1)).Reachable :=
    .step reachable_selfEmbedding (by decide)
  have hforget : (selfEmbedding.after (.compile 1)).forget = selfEmbedding.forget :=
    (reachable_selfEmbedding.coherent.advances_compile (by decide)).forget
  obtain ⟨_, hbuild, hsame⟩ := caching_invisible hfailed
  exact ⟨hfailed, by decide +kernel, by decide +kernel, by decide +kernel,
    hbuild 1 (by decide +kernel),
    (hsame _ reachable_selfEmbedding 1 (by decide +kernel) (by decide +kernel)
      fun j _ => (forget_mapper_eq hforget j).symm).1⟩

end Store

end Reshape
