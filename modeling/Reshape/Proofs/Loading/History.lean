import Reshape.Proofs.Loading.Cycles

/-! # Histories of a loader

A caller loads documents, changes the extensions, runs the mappers that it was
given and tries to configure them, in any order. A mapper that is given is
compiled with all mappers inside, so nothing that follows makes a difference to
it, and no mapper is loaded that embeds itself.
-/

namespace Reshape

inductive Action where
  | load (d : Document)
  | loadAndRegister (d : Document)
  | loadText (text : String)
  | loadFile (path : String) (content? : Option String)
  | registerExtension (e : Extension)
  | unregisterExtension (name : String)
  | execute (id : MapperId) (source : Value)
  | configure (id : MapperId) (edit : Configuration → Configuration)

inductive Answer where
  | loaded (id : MapperId)
  | ran (o : Outcome)
  | done

/-- The document of a step that registers its mapper, unless it cannot be read. -/
def Action.document? : Action → Option Document
  | loadAndRegister d => some d
  | loadText text => (Document.ofText text).toOption
  | loadFile path content? => (Document.ofFile path content?).toOption
  | _ => none

def Answer.given : Except LoadError Answer → List MapperId
  | .ok (loaded id) => [id]
  | _ => []

namespace Loader

def returning (load : Except LoadError MapperId × Loader) : Except LoadError Answer × Loader :=
  (load.1.map .loaded, load.2)

def perform (l : Loader) : Action → Except LoadError Answer × Loader
  | .load d => returning (l.load d)
  | .loadAndRegister d => returning (l.loadAndRegister d)
  | .loadText text => returning (l.loadText text)
  | .loadFile path content? => returning (l.loadFile path content?)
  | .registerExtension e => (.ok .done, { l with extensions := l.extensions.register e })
  | .unregisterExtension name => (.ok .done, { l with extensions := l.extensions.unregister name })
  | .execute id source =>
    let (result, l) := l.execute id source
    ((result.mapError .mapping).map .ran, l)
  | .configure id edit =>
    match l.store.configure id edit with
    | .error e => (.error (.mapping e), l)
    | .ok store => (.ok .done, { l with store })

end Loader

/-- A caller with a loader, and with the mappers that it was given. -/
structure Client where
  loader : Loader
  given : List MapperId

namespace Client

def start (extensions : Registry) : Client := ⟨.new extensions, []⟩

/-- A caller has the mappers that it was given, and with them those inside. -/
def Has (c : Client) (id : MapperId) : Prop := ∃ i ∈ c.given, c.loader.store.Reaches i id

/-- A step runs and configures mappers only that the caller has. -/
def Allows (c : Client) : Action → Prop
  | .execute id _ => c.Has id
  | .configure id _ => c.Has id
  | _ => True

/-- The caller after a step, whether that succeeds or fails. -/
def after (c : Client) (a : Action) : Client :=
  let (answer, loader) := c.loader.perform a
  ⟨loader, Answer.given answer ++ c.given⟩

/-- A caller at a later point. -/
inductive Later (c : Client) : Client → Prop where
  | refl : Later c c
  | step {k : Client} {a : Action} : Later c k → k.Allows a → Later c (k.after a)

/-- A caller that began without mappers. -/
inductive Reachable : Client → Prop where
  | start (extensions : Registry) : Reachable (start extensions)
  | step {c : Client} {a : Action} : Reachable c → c.Allows a → Reachable (c.after a)

/-- The given mappers are compiled, and no others are registered. -/
structure Settled (c : Client) : Prop where
  reachable : c.loader.store.Reachable
  compiled : ∀ id ∈ c.given, c.loader.store.IsCompiled id
  registered : ∀ name id, c.loader.mappers.get? name = some id → id ∈ c.given

end Client

/-- How a step ends, and which mappers are registered then. -/
inductive Loader.Moves (l l' : Loader) (a : Action) : Except LoadError Answer → Prop where
  | fails (e : LoadError) (hacyclic : ¬ e.IsCircular) (hmappers : l'.mappers = l.mappers) :
    Moves l l' a (.error e)
  | keeps (answer : Answer) (hgiven : Answer.given (.ok answer) = []) (hnone : a.document? = none)
    (hmappers : l'.mappers = l.mappers) : Moves l l' a (.ok answer)
  | loads (id : MapperId) (hnew : id = l.store.size) (hcompiled : l'.store.IsCompiled id)
    (hmappers : l'.mappers = a.document?.elim l.mappers fun d => l.mappers.put d.name id) :
    Moves l l' a (.ok (.loaded id))

namespace Loader.Moves

variable {l l' : Loader} {a : Action} {answer : Except LoadError Answer}

theorem ne_circular (h : l.Moves l' a answer) (field : String) :
    answer ≠ .error (.mapping (.circularMapper field)) := by
  rintro rfl
  cases h with
  | fails _ hacyclic => exact hacyclic ⟨field, rfl⟩

theorem mappers_of_error {e : LoadError} (h : l.Moves l' a (.error e)) :
    l'.mappers = l.mappers := by
  cases h with
  | fails _ _ hmappers => exact hmappers

theorem mappers_of_none (h : l.Moves l' a answer) (ha : a.document? = none) :
    l'.mappers = l.mappers := by
  cases h with
  | fails _ _ hmappers => exact hmappers
  | keeps _ _ _ hmappers => exact hmappers
  | loads _ _ _ hmappers => rwa [ha] at hmappers

theorem mappers_of_document {d : Document} {result : Answer} (h : l.Moves l' a (.ok result))
    (ha : a.document? = some d) :
    result = .loaded l.store.size ∧ l'.mappers = l.mappers.put d.name l.store.size := by
  cases h with
  | keeps _ _ hnone =>
    rw [hnone] at ha
    cases ha
  | loads id hnew _ hmappers =>
    subst hnew
    rw [ha] at hmappers
    exact ⟨rfl, hmappers⟩

end Loader.Moves

theorem Loader.perform_configure {l : Loader} {id : MapperId} (h : l.store.IsCompiled id)
    (edit : Configuration → Configuration) :
    l.perform (.configure id edit) = (.error (.mapping .alreadyCompiled), l) := by
  have hconfigure : l.store.configure id edit = .error .alreadyCompiled := if_pos h
  rw [perform, hconfigure]

namespace Client

variable {c k : Client} {a : Action} {id : MapperId}

theorem Settled.has (hc : c.Settled) (h : c.Has id) : c.loader.store.IsCompiled id := by
  obtain ⟨i, hi, hreaches⟩ := h
  exact hc.reachable.coherent.isCompiled_of_reaches (hc.compiled i hi) hreaches

theorem Settled.isCompiled_of_get? (hc : c.Settled) {name : String}
    (h : c.loader.mappers.get? name = some id) : c.loader.store.IsCompiled id :=
  hc.compiled id (hc.registered name id h)

theorem Settled.sound (hc : c.Settled) : c.loader.Sound where
  reachable := hc.reachable
  registered := fun _ _ h => Store.lt_size_of_isCompiled (hc.isCompiled_of_get? h)

theorem settled_start (extensions : Registry) : (start extensions).Settled where
  reachable := .empty
  compiled := fun id h => absurd h List.not_mem_nil
  registered := fun name id h => by simp [start, Loader.new] at h

theorem Settled.moves_load (hc : c.Settled) (d : Document) :
    c.loader.Moves (c.loader.load d).2 (.load d) (Loader.returning (c.loader.load d)).1 := by
  have hmappers : (c.loader.load d).2.mappers = c.loader.mappers :=
    congrArg Environment.mappers (c.loader.load_toEnvironment d)
  rcases hload : c.loader.load d with ⟨e | id, l'⟩
  · rw [hload] at hmappers
    exact .fails e (hc.sound.load_not_circular (fun _ _ => hc.isCompiled_of_get?) hload) hmappers
  · rw [hload] at hmappers
    obtain ⟨hnew, _, _, _, _, hcompiled⟩ := hc.sound.load_eq_ok hload
    exact .loads id hnew (Store.isCompiled_of_eq_some hcompiled) hmappers

theorem Settled.moves_loadParsed (hc : c.Settled) (parsed : Except ParseFault Document)
    (ha : a.document? = parsed.toOption) :
    c.loader.store.Later (c.loader.loadParsed parsed).2.store ∧
      c.loader.Moves (c.loader.loadParsed parsed).2 a
        (Loader.returning (c.loader.loadParsed parsed)).1 := by
  cases parsed with
  | error fault => exact ⟨.refl, .fails _ (fun ⟨_, h⟩ => by cases h) rfl⟩
  | ok d =>
    have hlater := hc.sound.later_load d
    have hmoves := hc.moves_load d
    rw [Loader.loadParsed, Loader.loadAndRegister]
    rcases hload : c.loader.load d with ⟨e | id, l'⟩
    · rw [hload] at hlater hmoves
      cases hmoves with
      | fails _ hacyclic hmappers => exact ⟨hlater, .fails e hacyclic hmappers⟩
    · rw [hload] at hlater hmoves
      cases hmoves with
      | keeps _ hgiven => cases hgiven
      | loads _ hnew hcompiled hmappers =>
        refine ⟨hlater, .loads id hnew hcompiled ?_⟩
        rw [ha]
        exact congrArg (Entries.put d.name id) hmappers

/-- A step leads to a later store, and is a move. -/
theorem Settled.moves (hc : c.Settled) (ha : c.Allows a) :
    c.loader.store.Later (c.loader.perform a).2.store ∧
      c.loader.Moves (c.loader.perform a).2 a (c.loader.perform a).1 := by
  cases a with
  | load d => exact ⟨hc.sound.later_load d, hc.moves_load d⟩
  | loadAndRegister d => exact hc.moves_loadParsed (.ok d) rfl
  | loadText text => exact hc.moves_loadParsed (Document.ofText text) rfl
  | loadFile path content? => exact hc.moves_loadParsed (Document.ofFile path content?) rfl
  | registerExtension e => exact ⟨.refl, .keeps .done rfl rfl rfl⟩
  | unregisterExtension name => exact ⟨.refl, .keeps .done rfl rfl rfl⟩
  | execute id source =>
    have hlater : c.loader.store.Later (c.loader.store.after (.execute id source)) :=
      .step .refl (Store.lt_size_of_isCompiled (hc.has ha))
    refine ⟨hlater, ?_⟩
    obtain ⟨p, hp⟩ := Store.isCompiled_iff.mp (hc.has ha)
    have hrun : (c.loader.store.execute id source).1 = p.run source :=
      Store.Later.refl.execute_eq_run hc.reachable hp source
    rw [Loader.perform, Loader.execute]
    rcases hexecute : c.loader.store.execute id source with ⟨result, store⟩
    rw [hexecute] at hrun
    obtain rfl : result = p.run source := hrun
    rw [Procedure.run]
    cases p.evaluate source with
    | error fault => exact .fails _ (fun ⟨_, h⟩ => by cases h) rfl
    | ok o => exact .keeps (.ran o) rfl rfl rfl
  | configure id edit =>
    rw [Loader.perform_configure (hc.has ha) edit]
    exact ⟨.refl, .fails _ (fun ⟨_, h⟩ => by cases h) rfl⟩

theorem Settled.after (hc : c.Settled) (ha : c.Allows a) : (c.after a).Settled := by
  obtain ⟨hlater, hmoves⟩ := hc.moves ha
  have hkept : ∀ id ∈ c.given, (c.loader.perform a).2.store.IsCompiled id :=
    fun id hid => hlater.isCompiled hc.reachable (hc.compiled id hid)
  have hreachable := hlater.reachable hc.reachable
  rw [Client.after]
  rcases hperform : c.loader.perform a with ⟨answer, l'⟩
  rw [hperform] at hkept hmoves hreachable
  cases hmoves with
  | fails e _ hmappers =>
    exact ⟨hreachable, hkept, fun name id h => hc.registered name id (hmappers ▸ h)⟩
  | keeps answer hgiven _ hmappers =>
    dsimp only
    rw [hgiven]
    exact ⟨hreachable, hkept, fun name id h => hc.registered name id (hmappers ▸ h)⟩
  | loads id hnew hcompiled hmappers =>
    refine ⟨hreachable, List.forall_mem_cons.mpr ⟨hcompiled, hkept⟩, fun name j h => ?_⟩
    rw [hmappers] at h
    cases hd : a.document? with
    | none => exact List.mem_cons_of_mem _ (hc.registered name j (by rwa [hd] at h))
    | some d =>
      rw [hd] at h
      by_cases hname : d.name = name
      · rw [Option.elim_some, hname, Entries.get?_put_self, Option.some.injEq] at h
        exact h ▸ List.mem_cons_self
      · rw [Option.elim_some, Entries.get?_put_of_ne hname] at h
        exact List.mem_cons_of_mem _ (hc.registered name j h)

theorem Reachable.settled (hc : c.Reachable) : c.Settled := by
  induction hc with
  | start extensions => exact settled_start extensions
  | step _ ha ih => exact ih.after ha

theorem Later.settled (h : c.Later k) (hc : c.Settled) : k.Settled := by
  induction h with
  | refl => exact hc
  | step _ ha ih => exact ih.after ha

theorem Later.store (h : c.Later k) (hc : c.Settled) : c.loader.store.Later k.loader.store := by
  induction h with
  | refl => exact .refl
  | step h ha ih => exact ih.trans ((h.settled hc).moves ha).1

theorem Later.execute_eq (h : c.Later k) (hc : c.Settled) (hid : id ∈ c.given) (source : Value) :
    (k.loader.execute id source).1 = (c.loader.execute id source).1 := by
  obtain ⟨p, hp⟩ := Store.isCompiled_iff.mp (hc.compiled id hid)
  have hthen := (h.store hc).execute_eq_run hc.reachable hp source
  have hnow := Store.Later.refl.execute_eq_run hc.reachable hp source
  exact hthen.trans hnow.symm

/--
Registered mappers are compiled, and so are all that they reach. No step fails
because of a cycle. One that fails, or that registers no document, leaves the
registered mappers as they are, and one that registers a document changes the
entry of its name only. What a given mapper does is the same at all later points,
at which it and the mappers inside refuse to be configured.
-/
theorem given_mappers_frozen (hc : c.Reachable) :
    (∀ name id, c.loader.mappers.get? name = some id →
      ∀ j, c.loader.store.Reaches id j → c.loader.store.IsCompiled j) ∧
    (∀ a, c.Allows a → ∀ answer l', c.loader.perform a = (answer, l') →
      (∀ field, answer ≠ .error (.mapping (.circularMapper field))) ∧
      (∀ name id, c.loader.mappers.get? name = some id →
        l'.store.mapper id = c.loader.store.mapper id) ∧
      (∀ e, answer = .error e → l'.mappers = c.loader.mappers) ∧
      (a.document? = none → l'.mappers = c.loader.mappers) ∧
      ∀ d result, a.document? = some d → answer = .ok result →
        ∃ id, result = .loaded id ∧ (∀ name, c.loader.mappers.get? name ≠ some id) ∧
          l'.mappers.get? d.name = some id ∧
          ∀ name, name ≠ d.name → l'.mappers.get? name = c.loader.mappers.get? name) ∧
    ∀ id ∈ c.given, ∀ k, c.Later k →
      (∀ source, (k.loader.execute id source).1 = (c.loader.execute id source).1) ∧
      ∀ j, c.loader.store.Reaches id j → ∀ edit,
        (k.loader.perform (.configure j edit)).1 = .error (.mapping .alreadyCompiled) := by
  have hsettled := hc.settled
  have hcoherent := hsettled.reachable.coherent
  refine ⟨fun name id h j => ?_, fun a ha answer l' h => ?_, fun id hid k hk => ⟨?_, ?_⟩⟩
  · exact hcoherent.isCompiled_of_reaches (hsettled.isCompiled_of_get? h)
  · obtain ⟨hlater, hmoves⟩ := hsettled.moves ha
    rw [h] at hlater hmoves
    refine ⟨hmoves.ne_circular, fun name id hname => ?_, fun e he => ?_, hmoves.mappers_of_none,
      fun d result hd hresult => ?_⟩
    · exact hlater.mapper_eq hsettled.reachable (hsettled.isCompiled_of_get? hname)
    · subst he
      exact hmoves.mappers_of_error
    · subst hresult
      obtain ⟨rfl, hmappers⟩ := hmoves.mappers_of_document hd
      refine ⟨_, rfl, fun name hname => ?_, ?_, fun name hname => ?_⟩
      · exact (hsettled.sound.registered name _ hname).false
      · rw [hmappers, Entries.get?_put_self]
      · rw [hmappers, Entries.get?_put_of_ne hname.symm]
  · exact hk.execute_eq hsettled hid
  · intro j hj edit
    have hcompiled := hcoherent.isCompiled_of_reaches (hsettled.compiled id hid) hj
    rw [Loader.perform_configure ((hk.store hsettled).isCompiled hsettled.reachable hcompiled)]

/-- A caller that has loaded a document, and then one with a reference to it. -/
def nesting : Client :=
  (start .empty).after (.loadAndRegister ⟨"inner", .safe, .empty, [("name", .path "name")]⟩)
    |>.after (.loadAndRegister ⟨"outer", .safe, .empty, [("part", .mapper "inner" none)]⟩)

theorem reachable_nesting : nesting.Reachable := .step (.step (.start .empty) trivial) trivial

/-- Another document under the name of the first one, which refers to its earlier mapper. -/
def replacement : Document := ⟨"inner", .failFast, .empty, [("before", .mapper "inner" none)]⟩

theorem given_mappers_frozen_nesting :
    let k := (nesting.after (.loadAndRegister replacement)).after (.configure 0 (·.erase "name"))
    nesting.loader.mappers.get? "inner" = some 0 ∧ k.loader.mappers.get? "inner" = some 2 ∧
      k.loader.mappers.get? "outer" = nesting.loader.mappers.get? "outer" ∧
      (k.loader.perform (.configure 0 (·.erase "name"))).1 =
        .error (.mapping .alreadyCompiled) ∧
      ∀ source, (k.loader.execute 1 source).1 = (nesting.loader.execute 1 source).1 := by
  obtain ⟨_, _, hfrozen⟩ := given_mappers_frozen reachable_nesting
  have hgiven : (nesting.after (.loadAndRegister replacement)).given = [2, 1, 0] := by
    decide +kernel
  have hlater := Later.step (a := .configure 0 (·.erase "name"))
    (Later.step (a := .loadAndRegister replacement) (Later.refl (c := nesting)) trivial)
    ⟨0, by rw [hgiven]; decide, .refl⟩
  obtain ⟨hrun, hconfigure⟩ := hfrozen 1 (by decide +kernel) _ hlater
  refine ⟨by decide +kernel, by decide +kernel, by decide +kernel, ?_, hrun⟩
  have hinside : 0 ∈ (nesting.loader.store.mapper 1).config.embedded := by decide +kernel
  exact hconfigure 0 (.single hinside) _

end Client

end Reshape
