import Reshape.Proofs.Composition.Later
import Reshape.Proofs.Running.Isolation

/-! # Embedded mappers on their own

Where a mapper is embedded, its parent does what running that mapper on its own
tells: it takes the result and the errors, or fails with the text of the fault.
-/

namespace Reshape

/-- What the source path of an embedded mapper selects; without a path, the whole source. -/
def selectSource (at? : Option Path) (source : Value) : Except MappingFault (Option Value) :=
  match at? with
  | none => .ok (some source)
  | some path => path.resolve source

def runFields (mode : Mode) (source : Value) (fields : List Field) (before : Outcome) :
    Except Error Outcome :=
  (evaluateFields mode source before fields).mapError .mapping

/-- A mapper that fails at a key is one error of a safe run, and the end of a fail-fast one. -/
def failAt (mode : Mode) (key : String) (fault : MappingFault) (before : Outcome) :
    Except Error Outcome :=
  match mode with
  | .safe => .ok ⟨before.result, before.errors ++ [⟨.mapper, key, fault⟩]⟩
  | .failFast => .error (.mapping fault)

/-- How a run goes on with what an embedded mapper has given on its own. -/
def takeOver (mode : Mode) (key : String) (executed : Except Error Outcome) (before : Outcome) :
    Except Error Outcome :=
  match executed with
  | .error (.mapping fault) => failAt mode key (.nested fault.message) before
  | .error other => .error other
  | .ok child =>
    match mode, child.errors with
    | .failFast, first :: _ => .error (.mapping (.nested first.fault.message))
    | _, errors =>
      .ok ⟨before.result.insert key (.object child.result),
        before.errors ++ errors.map (.under key)⟩

/-- How a run goes on at a key where a mapper is embedded, which `execute` runs on its own. -/
def runEmbedded (mode : Mode) (key : String) (default : Option Value)
    (execute : Value → Except Error Outcome) (selected : Except MappingFault (Option Value))
    (before : Outcome) : Except Error Outcome :=
  match selected with
  | .error fault => failAt mode key fault before
  | .ok none | .ok (some .null) =>
    match default with
    | some v => .ok ⟨before.result.insert key v, before.errors⟩
    | none => .ok before
  | .ok (some v) => takeOver mode key (execute v) before

def embeddedValue (default : Option Value) (execute : Value → Except Error Outcome)
    (selected : Except MappingFault (Option Value)) : Option Value :=
  match selected with
  | .error _ => none
  | .ok none | .ok (some .null) => default
  | .ok (some v) => (execute v).toOption.map fun child => .object child.result

theorem embeddedSource_eq_select (at? : Option Path) (source : Value) :
    embeddedSource at? source =
      (selectSource at? source).map fun v => v.filter fun v => !v.isNull := by
  cases at? <;> rfl

section Fields

variable {mode : Mode} {source : Value} {key : String} {default : Option Value}

theorem run_mk (fields : List Field) :
    (Procedure.mk mode fields).run source = runFields mode source fields .empty := by
  rw [Procedure.run, Procedure.evaluate, runFields]

theorem runFields_append (fields others : List Field) (before : Outcome) :
    runFields mode source (fields ++ others) before =
      runFields mode source fields before >>= runFields mode source others := by
  rw [runFields, evaluateFields_append, mapError_bind]
  rfl

theorem runFields_cons (f : Field) (rest : List Field) (before : Outcome) :
    runFields mode source (f :: rest) before =
      (f.step mode source before).mapError .mapping >>= runFields mode source rest := by
  rw [runFields, evaluateFields_cons, mapError_bind]
  rfl

theorem settle_embed (p : Procedure) (v : Value) (before : Outcome) :
    ((settle mode key ((embed mode key (p.evaluate v)).map (.orDefault default))).map
      (before.add key)).mapError .mapping = takeOver mode key (p.run v) before := by
  rw [Procedure.run]
  rcases p.evaluate v with fault | ⟨result, _ | ⟨first, rest⟩⟩ <;> cases mode <;> rfl

theorem add_absent (before : Outcome) :
    before.add key (.orDefault default ⟨none, []⟩) =
      match default with
      | some v => ⟨before.result.insert key v, before.errors⟩
      | none => before := by
  cases default <;> simp [Outcome.add, Contribution.orDefault]

/-- The field of an embedded mapper does what a run of that mapper tells. -/
theorem step_mapper (p : Procedure) (at? : Option Path) (before : Outcome) :
    ((Field.mk key (.mapper p at?) default).step mode source before).mapError .mapping =
      runEmbedded mode key default p.run (selectSource at? source) before := by
  have habsent : .ok (before.add key (.orDefault default ⟨none, []⟩)) =
      runEmbedded mode key default p.run (.ok none) before := by
    rw [add_absent]
    cases default <;> rfl
  rw [Field.step, Plan.contribution, embeddedSource_eq_select]
  rcases selectSource at? source with fault | _ | v
  · cases mode <;> rfl
  · exact habsent
  · cases v with
    | null => exact habsent
    | _ => exact settle_embed p _ before

theorem lookup_step {f : Field} {before o : Outcome} (hkey : key ≠ f.key)
    (ho : f.step mode source before = .ok o) :
    o.result.lookup key = before.result.lookup key := by
  obtain ⟨other, plan, default⟩ := f
  rw [Field.step] at ho
  generalize settle mode other _ = settled at ho
  rcases settled with fault | ⟨_ | v, errors⟩
  · cases ho
  · rw [← Except.ok.inj ho]
    rfl
  · rw [← Except.ok.inj ho]
    exact (Members.lookup_insert other key v before.result).trans (if_neg hkey)

theorem lookup_evaluateFields {fields : List Field} {before o : Outcome}
    (hkey : key ∉ fields.map Field.key) (ho : evaluateFields mode source before fields = .ok o) :
    o.result.lookup key = before.result.lookup key := by
  induction fields generalizing before with
  | nil => rw [← Except.ok.inj ho]
  | cons f rest ih =>
    rw [List.map_cons, List.mem_cons, not_or] at hkey
    rw [evaluateFields_cons, bind_eq_ok_iff] at ho
    obtain ⟨between, hbetween, ho⟩ := ho
    rw [ih hkey.2 ho, lookup_step hkey.1 hbetween]

theorem lookup_runFields {fields : List Field} {before o : Outcome}
    (hkey : key ∉ fields.map Field.key) (ho : runFields mode source fields before = .ok o) :
    o.result.lookup key = before.result.lookup key := by
  rw [runFields] at ho
  cases hfields : evaluateFields mode source before fields with
  | error fault =>
    rw [hfields] at ho
    cases ho
  | ok between =>
    rw [hfields] at ho
    obtain rfl := Except.ok.inj ho
    exact lookup_evaluateFields hkey hfields

theorem lookup_failAt {fault : MappingFault} {before o : Outcome}
    (ho : failAt mode key fault before = .ok o) : o.result = before.result := by
  cases mode with
  | safe => rw [← Except.ok.inj ho]
  | failFast => cases ho

theorem lookup_takeOver {executed : Except Error Outcome} {before o : Outcome}
    (hbefore : before.result.lookup key = none) (ho : takeOver mode key executed before = .ok o) :
    o.result.lookup key = executed.toOption.map fun child => .object child.result := by
  rcases executed with error | ⟨result, errors⟩
  · cases error with
    | mapping fault =>
      rw [lookup_failAt ho, hbefore]
      rfl
    | _ => cases ho
  · have hresult : o.result = before.result.insert key (.object result) := by
      cases mode with
      | safe => rw [← Except.ok.inj ho]
      | failFast =>
        cases errors with
        | nil => rw [← Except.ok.inj ho]
        | cons first rest => cases ho
    rw [hresult, Members.lookup_insert, if_pos rfl]
    rfl

theorem lookup_runEmbedded {execute : Value → Except Error Outcome}
    {selected : Except MappingFault (Option Value)} {before o : Outcome}
    (hbefore : before.result.lookup key = none)
    (ho : runEmbedded mode key default execute selected before = .ok o) :
    o.result.lookup key = embeddedValue default execute selected := by
  have habsent : runEmbedded mode key default execute (.ok none) before = .ok o →
      o.result.lookup key = default := by
    intro ho
    cases default with
    | none => rw [← Except.ok.inj ho, hbefore]
    | some v => rw [← Except.ok.inj ho, Members.lookup_insert, if_pos rfl]
  rcases selected with fault | _ | v
  · rw [lookup_failAt ho, hbefore]
    rfl
  · exact habsent ho
  · cases v with
    | null => exact habsent ho
    | _ => exact lookup_takeOver hbefore ho

end Fields

namespace Store

variable {s : Store} {i j : MapperId} {key : String} {source? : Option String}
  {before after : Configuration}

theorem Coherent.procedures_of_embedding (hs : s.Coherent) (hi : s.IsCompiled i)
    (hconfig : (s.mapper i).config = before ++ (key, .mapper j source?) :: after) :
    let m := s.mapper i
    ∃ at? first last c, readSource source? = .ok at? ∧
      buildBindings (s.build [i]) m.mode m.defaults [] before = .ok first ∧
      buildBindings (s.build [i]) m.mode m.defaults [] after = .ok last ∧
      (s.mapper j).compiled = some c ∧
      m.compiled = some (.mk m.mode
        (first ++ .mk key (.mapper c at?) (m.defaults.get? key) :: last)) := by
  intro m
  obtain ⟨p, hp⟩ := isCompiled_iff.mp hi
  have hbuild := hs.build_of_compiled hp
  rw [build_of_not_mem List.not_mem_nil, hconfig] at hbuild
  obtain ⟨fields, hfields, rfl⟩ := Configuration.build_eq_ok_iff.mp hbuild
  obtain ⟨first, hfirst, others, hothers, rfl⟩ := buildBindings_append_eq_ok_iff.mp hfields
  obtain ⟨plan, hplan, last, hlast, rfl⟩ := buildBindings_cons_eq_ok_iff.mp hothers
  obtain ⟨at?, hat, c, hc, rfl⟩ := Binding.build_mapper_eq_ok_iff.mp hplan
  have hembeds : s.Embeds i j := by
    rw [Embeds, hconfig]
    exact (forall_embeddedIn_append.mp fun _ h => h).2 j List.mem_cons_self
  exact ⟨at?, first, last, c, hat, hfirst, hlast, hs.compiled_of_embeds hi hembeds hc, hp⟩

/--
Once a parent is compiled, it does in every later store what the mapper that it
embeds at a key tells there on its own, for the value that its source path
selects. Before and after this key it processes its other fields.
-/
theorem embedding_is_execution (hs : s.Reachable) (hi : s.IsCompiled i)
    (hconfig : (s.mapper i).config = before ++ (key, .mapper j source?) :: after)
    (hkeys : (Entries.keys (s.mapper i).config).Nodup) :
    let m := s.mapper i
    ∃ at? first last, readSource source? = .ok at? ∧
      buildBindings (s.build [i]) m.mode m.defaults [] before = .ok first ∧
      buildBindings (s.build [i]) m.mode m.defaults [] after = .ok last ∧
      ∀ t, s.Later t → ∀ source,
        let execute v := (t.execute j v).1
        let selected := selectSource at? source
        (t.execute i source).1 = (do
          let o ← runFields m.mode source first .empty
          let o ← runEmbedded m.mode key (m.defaults.get? key) execute selected o
          runFields m.mode source last o) ∧
        ∀ o, (t.execute i source).1 = .ok o →
          o.result.lookup key = embeddedValue (m.defaults.get? key) execute selected := by
  intro m
  obtain ⟨at?, first, last, c, hat, hfirst, hlast, hchild, hp⟩ :=
    hs.coherent.procedures_of_embedding hi hconfig
  refine ⟨at?, first, last, hat, hfirst, hlast, fun t ht source => ?_⟩
  intro execute selected
  have hexecute : execute = c.run := by
    funext v
    exact ht.execute_eq_run hs hchild v
  have hrun : (t.execute i source).1 = (do
      let o ← runFields m.mode source first .empty
      let o ← runEmbedded m.mode key (m.defaults.get? key) execute selected o
      runFields m.mode source last o) := by
    rw [ht.execute_eq_run hs hp, hexecute, run_mk, runFields_append]
    refine congrArg _ (funext fun o => ?_)
    rw [runFields_cons, step_mapper]
  refine ⟨hrun, fun o ho => ?_⟩
  rw [hrun] at ho
  obtain ⟨x, hx, ho⟩ := bind_eq_ok_iff.mp ho
  obtain ⟨y, hy, ho⟩ := bind_eq_ok_iff.mp ho
  have hmiddle : (key :: (Entries.keys before ++ Entries.keys after)).Nodup := by
    rw [hconfig, Entries.keys_append, Entries.keys_cons] at hkeys
    exact List.nodup_middle.mp hkeys
  obtain ⟨hbefore, hafter⟩ := not_or.mp (List.mem_append.not.mp (List.nodup_cons.mp hmiddle).1)
  rw [← map_key_of_buildBindings hfirst] at hbefore
  rw [← map_key_of_buildBindings hlast] at hafter
  rw [lookup_runFields hafter ho]
  exact lookup_runEmbedded (lookup_runFields hbefore hx) hy

def boxedTwice : Store :=
  boxing.after (.create [("name", .path "name" .nested), ("box", .mapper 0 (some "box"))]
    .empty .safe)

theorem reachable_boxedTwice : boxedTwice.Reachable := .step reachable_boxing (by decide)

theorem embedding_is_execution_listedBox :
    let later := (boxedTwice.after (.compile 1)).after (.create kindOnly .empty .failFast)
    ∃ child o, (later.execute 0 (.array [])).1 = .ok child ∧
      (later.execute 1 listedBox).1 = .ok o ∧
      child.errors =
        [⟨.field, "size", .unresolved "size" "cannot read 'size' of array value"⟩] ∧
      o.errors.map FieldError.field = ["box.size"] ∧
      o.result.lookup "box" = some (.object child.result) := by
  intro later
  have hcompiled : (boxedTwice.after (.compile 1)).Reachable :=
    .step reachable_boxedTwice (by decide)
  have hlater : (boxedTwice.after (.compile 1)).Later later := .step .refl (by decide +kernel)
  have hconfig : ((boxedTwice.after (.compile 1)).mapper 1).config =
      [("name", .path "name" .nested)] ++ ("box", .mapper 0 (some "box")) :: [] := by
    have hsize : 1 < boxedTwice.size := by decide
    have hforget := (reachable_boxedTwice.coherent.advances_compile hsize).forget
    exact congrArg Mapper.config (forget_mapper_eq hforget 1)
  have hkeys : (Entries.keys ((boxedTwice.after (.compile 1)).mapper 1).config).Nodup := by
    rw [hconfig]
    decide
  obtain ⟨at?, first, last, hat, hfirst, _, hrun⟩ :=
    embedding_is_execution hcompiled (by decide +kernel) hconfig hkeys
  obtain ⟨child, hchild⟩ : ∃ child, (later.execute 0 (.array [])).1 = .ok child :=
    failure?_eq_none_iff.mp (by decide +kernel)
  obtain ⟨o, ho⟩ : ∃ o, (later.execute 1 listedBox).1 = .ok o :=
    failure?_eq_none_iff.mp (by decide +kernel)
  have hlookup := (hrun later hlater listedBox).2 o ho
  have hread : readSource (some "box") = .ok (some ⟨"box", [.key "box"], []⟩) := by
    decide +kernel
  obtain rfl := Except.ok.inj (hread.symm.trans hat)
  have hselect : selectSource (some ⟨"box", [.key "box"], []⟩) listedBox =
      .ok (some (.array [])) := rfl
  simp only [hselect, embeddedValue, hchild] at hlookup
  refine ⟨child, o, hchild, ho, ?_, ?_, hlookup⟩
  · have herrors : (later.execute 0 (.array [])).1.map Outcome.errors = .ok
        [⟨.field, "size", .unresolved "size" "cannot read 'size' of array value"⟩] := by
      decide +kernel
    rw [hchild] at herrors
    exact Except.ok.inj herrors
  · have hfields : (later.execute 1 listedBox).1.map (·.errors.map FieldError.field) =
        .ok ["box.size"] := by
      decide +kernel
    rw [ho] at hfields
    exact Except.ok.inj hfields

end Store

end Reshape
