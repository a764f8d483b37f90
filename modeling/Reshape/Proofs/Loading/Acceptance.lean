import Reshape.Proofs.Loading.Interpreter
import Reshape.Proofs.Path.Grammar

/-! # Documents that can be loaded

A document is loaded if all that it refers to is there: its paths can be read, and
its calls and references name what is registered. Otherwise the first fault is
reported, where one of a name or of an argument comes before all those of paths
of fields, as the fields are bound before any of their paths is read.
-/

namespace Reshape

mutual

/-- A field and all those inside, in depth-first order. -/
def FieldSpec.walk : FieldSpec → List FieldSpec
  | .tree fields => .tree fields :: walkFields fields
  | spec => [spec]

def walkFields : List (String × FieldSpec) → List FieldSpec
  | [] => []
  | (_, spec) :: rest => spec.walk ++ walkFields rest

end

def Readable (text : String) : Prop := ∃ p, Path.parse text = .ok p

/-- A call target names a registered extension and a function in it, parted by its first dot. -/
def Registry.Provides (r : Registry) (target : String) : Prop :=
  ∃ extension function, target = extension ++ "." ++ function ∧ '.' ∉ extension.toList ∧
    extension ≠ "" ∧ function ≠ "" ∧
    ∃ e, r.extensions.get? extension = some e ∧ ∃ f, e.functions.get? function = some f

/-- All that a field refers to itself is there. -/
def FieldSpec.Resolvable (env : Environment) : FieldSpec → Prop
  | .path text => Readable text
  | .rule text _ => Readable text
  | .call target args =>
    env.extensions.Provides target ∧ ∀ text, .path text ∈ args → Readable text
  | .mapper name source =>
    (∃ id, env.mappers.get? name = some id) ∧ ∀ text ∈ source, Readable text
  | .tree _ => True

def Document.Resolvable (env : Environment) (d : Document) : Prop :=
  ∀ spec ∈ walkFields d.fields, spec.Resolvable env

def pathFault? (text : String) : Option LoadError := (unreadable? text).map .mapping

def Registry.targetFault? (r : Registry) (target : String) : Option LoadError :=
  let (extension, function) := calledName target
  if '.' ∉ target.toList ∨ extension = "" ∨ function = "" then some (.invalidCall target)
  else
    match r.extensions.get? extension with
    | none => some (.extension (.unknownExtension extension))
    | some e =>
      if (e.functions.get? function).isSome then none
      else some (.extension (.unknownFunction extension function e.functionNames))

def Argument.fault? : Argument → Option LoadError
  | .path text => pathFault? text
  | .literal _ => none

/-- What is wrong with the names and arguments in a field, apart from the fields inside. -/
def FieldSpec.referenceFaults (env : Environment) : FieldSpec → List LoadError
  | .call target args =>
    (env.extensions.targetFault? target).toList ++ args.filterMap Argument.fault?
  | .mapper name _ => if (env.mappers.get? name).isSome then [] else [.unknownMapper name]
  | _ => []

/-- The paths of a field itself, apart from arguments of calls. -/
def FieldSpec.paths : FieldSpec → List String
  | .path text => [text]
  | .rule text _ => [text]
  | .mapper _ source => source.toList
  | _ => []

/-- All that is wrong with a document: first names and arguments, then the paths of fields. -/
def Document.faults (env : Environment) (d : Document) : List LoadError :=
  (walkFields d.fields).flatMap (FieldSpec.referenceFaults env) ++
    ((walkFields d.fields).flatMap FieldSpec.paths).filterMap pathFault?

section Targets

theorem cut?_dot_eq_none_iff {cs : List Char} : Text.cut? ['.'] cs = none ↔ '.' ∉ cs := by
  induction cs with
  | nil => simp [Text.cut?]
  | cons c cs ih =>
    by_cases hc : c = '.'
    · simp [Text.cut?, hc]
    · have hne : ¬ '.' = c := fun h => hc h.symm
      simp [Text.cut?, List.isPrefixOf, hne, ih]

theorem callTarget?_eq (target : String) :
    callTarget? target =
      if '.' ∉ target.toList ∨ (calledName target).1 = "" ∨ (calledName target).2 = "" then none
      else some (calledName target) := by
  rw [callTarget?]
  cases hcut : Text.cut? ['.'] target.toList with
  | none => rw [if_pos (.inl (cut?_dot_eq_none_iff.mp hcut))]
  | some parts =>
    obtain ⟨before, after⟩ := parts
    obtain ⟨hbefore, hafter⟩ := cut?_dot hcut
    have hdot : '.' ∈ target.toList := by
      by_contra hmem
      rw [cut?_dot_eq_none_iff.mpr hmem] at hcut
      cases hcut
    have hname : calledName target = (.ofList before, .ofList after) := by
      rw [calledName, hbefore, hafter]
    simp [hname, hdot]

theorem calledName_eq_iff {target extension function : String} :
    '.' ∈ target.toList ∧ calledName target = (extension, function) ↔
      target = extension ++ "." ++ function ∧ '.' ∉ extension.toList := by
  constructor
  · rintro ⟨hdot, hname⟩
    obtain ⟨rfl, rfl⟩ := Prod.mk.inj hname
    obtain ⟨htext, hbefore, hhead⟩ := (Path.takeWhile_dropWhile_iff (p := (· ≠ '.'))).mp
      (⟨rfl, rfl⟩ : target.toList.takeWhile _ = _ ∧ target.toList.dropWhile _ = _)
    have hfirst : '.' ∉ target.toList.takeWhile (· ≠ '.') := fun h => by simpa using hbefore _ h
    rw [String.toList_ofList]
    refine ⟨String.toList_inj.mp ?_, hfirst⟩
    cases hrest : target.toList.dropWhile (· ≠ '.') with
    | nil =>
      rw [hrest, List.append_nil] at htext
      rw [htext] at hdot
      exact absurd hdot hfirst
    | cons c rest =>
      obtain rfl : c = '.' := by simpa using hhead c (by rw [hrest]; rfl)
      rw [String.toList_append, String.toList_append, String.toList_ofList, String.toList_ofList,
        List.tail_cons]
      rw [hrest] at htext
      simpa using htext
  · rintro ⟨rfl, hdot⟩
    have htext : (extension ++ "." ++ function).toList =
        extension.toList ++ '.' :: function.toList := by simp
    obtain ⟨hbefore, hafter⟩ := (Path.takeWhile_dropWhile_iff (p := (· ≠ '.'))).mpr
      ⟨htext, fun c hc => by simpa using ne_of_mem_of_not_mem hc hdot, by simp⟩
    refine ⟨by simp, ?_⟩
    rw [calledName, hbefore, hafter, String.ofList_toList, List.tail_cons, String.ofList_toList]

theorem Registry.targetFault?_eq_none_iff {r : Registry} {target : String} :
    r.targetFault? target = none ↔ r.Provides target := by
  rw [targetFault?, Provides]
  rcases hname : calledName target with ⟨extension, function⟩
  constructor
  · intro h
    by_cases hparts : '.' ∉ target.toList ∨ extension = "" ∨ function = ""
    · simp only [if_pos hparts, reduceCtorEq] at h
    · simp only [if_neg hparts] at h
      obtain ⟨hdot, hextension, hfunction⟩ := by simpa only [not_or, not_not] using hparts
      obtain ⟨htarget, hfirst⟩ := calledName_eq_iff.mp ⟨hdot, hname⟩
      refine ⟨extension, function, htarget, hfirst, hextension, hfunction, ?_⟩
      cases he : r.extensions.get? extension with
      | none => simp [he] at h
      | some e => exact ⟨e, rfl, Option.ne_none_iff_exists'.mp (by simpa [he] using h)⟩
  · rintro ⟨extension, function, htarget, hfirst, hextension, hfunction, e, he, f, hf⟩
    obtain ⟨hdot, hparts⟩ := calledName_eq_iff.mpr ⟨htarget, hfirst⟩
    obtain ⟨rfl, rfl⟩ := Prod.mk.inj (hname.symm.trans hparts)
    simp [hdot, hextension, hfunction, he, hf]

theorem failure?_function (r : Registry) (extension function : String) :
    failure? (r.function extension function) =
      match r.extensions.get? extension with
      | none => some (.extension (.unknownExtension extension))
      | some e =>
        if (e.functions.get? function).isSome then none
        else some (.extension (.unknownFunction extension function e.functionNames)) := by
  rw [Registry.function]
  cases r.extensions.get? extension with
  | none => rfl
  | some e =>
    dsimp only
    cases e.functions.get? function <;> rfl

theorem Argument.failure?_evaluator (arg : Argument) :
    (failure? arg.evaluator).map LoadError.mapping = arg.fault? := by
  cases arg with
  | path text => rw [evaluator, failure?_map, failure?_read, fault?, pathFault?]
  | literal v => rfl

theorem Registry.failure?_bindCall (r : Registry) (target : String) (args : List Argument) :
    failure? (r.bindCall target args) =
      ((r.targetFault? target).toList ++ args.filterMap Argument.fault?).head? := by
  have hargs : failure? ((args.mapM Argument.evaluator).mapError LoadError.mapping) =
      args.findSome? Argument.fault? := by
    rw [failure?_mapError, failure?_mapM, List.map_findSome?]
    exact congrArg (List.findSome? · args) (funext Argument.failure?_evaluator)
  rw [List.head?_append, List.head?_filterMap, ← hargs, bindCall, callTarget?_eq, targetFault?]
  rcases calledName target with ⟨extension, function⟩
  by_cases htarget : '.' ∉ target.toList ∨ extension = "" ∨ function = ""
  · simp only [if_pos htarget]
    rfl
  · simp only [if_neg htarget, ← failure?_function]
    cases r.function extension function with
    | error e => rfl
    | ok f =>
      rw [ok_bind, failure?_bind]
      cases (args.mapM Argument.evaluator).mapError LoadError.mapping <;> rfl

end Targets

section Faults

variable {env : Environment} {d : Document}

theorem pathFault?_eq_none_iff {text : String} : pathFault? text = none ↔ Readable text := by
  rw [pathFault?, Option.map_eq_none_iff, unreadable?_eq_none_iff, Readable]

theorem invalidPath_of_pathFault? {text : String} {e : Error}
    (h : pathFault? text = some (.mapping e)) : ∃ reason, e = .invalidPath text reason := by
  rw [pathFault?, unreadable?] at h
  cases hparse : Path.parse text with
  | ok p => simp [hparse] at h
  | error reason =>
    simp only [hparse, Option.map_some, Option.some.injEq, LoadError.mapping.injEq] at h
    exact ⟨reason, h.symm⟩

theorem filterMap_fault?_eq_nil_iff {args : List Argument} :
    args.filterMap Argument.fault? = [] ↔ ∀ text, .path text ∈ args → Readable text := by
  rw [List.filterMap_eq_nil_iff]
  constructor
  · exact fun h text hmem => pathFault?_eq_none_iff.mp (h _ hmem)
  · intro h arg hmem
    cases arg with
    | path text => exact pathFault?_eq_none_iff.mpr (h text hmem)
    | literal v => rfl

theorem FieldSpec.resolvable_iff {spec : FieldSpec} :
    spec.Resolvable env ↔
      spec.referenceFaults env = [] ∧ ∀ text ∈ spec.paths, pathFault? text = none := by
  cases spec with
  | path text => simp [Resolvable, referenceFaults, paths, pathFault?_eq_none_iff]
  | rule text flatten => simp [Resolvable, referenceFaults, paths, pathFault?_eq_none_iff]
  | call target args =>
    simp [Resolvable, referenceFaults, paths, Registry.targetFault?_eq_none_iff,
      ← filterMap_fault?_eq_nil_iff]
  | mapper name source =>
    simp [Resolvable, referenceFaults, paths, pathFault?_eq_none_iff, Option.isSome_iff_exists]
  | tree fields => simp [Resolvable, referenceFaults, paths]

/-- A document is without faults if all that it refers to is there. -/
theorem Document.faults_eq_nil_iff : d.faults env = [] ↔ d.Resolvable env := by
  simp only [faults, Document.Resolvable, FieldSpec.resolvable_iff, List.append_eq_nil_iff,
    List.flatMap_eq_nil_iff, List.filterMap_eq_nil_iff, List.mem_flatMap]
  constructor
  · rintro ⟨hreferences, hpaths⟩ spec hspec
    exact ⟨hreferences spec hspec, fun text htext => hpaths text ⟨spec, hspec, htext⟩⟩
  · intro h
    refine ⟨fun spec hspec => (h spec hspec).1, ?_⟩
    rintro text ⟨spec, hspec, htext⟩
    exact (h spec hspec).2 text htext

theorem Registry.targetFault?_ne_mapping {r : Registry} {target : String} {e : Error} :
    r.targetFault? target ≠ some (.mapping e) := by
  rw [targetFault?]
  dsimp only
  split
  · simp
  · split
    · simp
    · split <;> simp

theorem Document.invalidPath_of_mem_faults {e : Error} (h : .mapping e ∈ d.faults env) :
    ∃ text reason, e = .invalidPath text reason := by
  rw [faults, List.mem_append, List.mem_flatMap, List.mem_filterMap] at h
  obtain ⟨spec, _, hspec⟩ | ⟨text, _, htext⟩ := h
  · cases spec with
    | path text => cases hspec
    | rule text flatten => cases hspec
    | call target args =>
      rw [FieldSpec.referenceFaults, List.mem_append, Option.mem_toList, List.mem_filterMap]
        at hspec
      obtain htarget | ⟨arg, _, harg⟩ := hspec
      · exact absurd htarget Registry.targetFault?_ne_mapping
      · cases arg with
        | path text => exact ⟨text, invalidPath_of_pathFault? harg⟩
        | literal v => cases harg
    | mapper name source =>
      rw [FieldSpec.referenceFaults] at hspec
      split at hspec
      · cases hspec
      · cases List.mem_singleton.mp hspec
    | tree fields => cases hspec
  · exact ⟨text, invalidPath_of_pathFault? htext⟩

end Faults

section Fields

variable {env : Environment}

mutual

theorem FieldSpec.failure?_bind (spec : FieldSpec) :
    failure? (spec.bind env) = (spec.walk.flatMap (FieldSpec.referenceFaults env)).head? := by
  cases spec with
  | path text => rfl
  | rule text flatten => rfl
  | call target args =>
    simp only [FieldSpec.bind, Registry.failure?_bindCall, FieldSpec.walk,
      List.flatMap_singleton, FieldSpec.referenceFaults]
  | mapper name source =>
    simp only [FieldSpec.bind, FieldSpec.walk, List.flatMap_singleton, FieldSpec.referenceFaults]
    cases env.mappers.get? name <;> rfl
  | tree fields =>
    rw [FieldSpec.bind, failure?_map, failure?_bindFields fields, FieldSpec.walk, List.flatMap_cons]
    rfl

/-- Fields are bound unless names or arguments are at fault, and the first fault counts. -/
theorem failure?_bindFields (fields : List (String × FieldSpec)) :
    failure? (bindFields env fields) =
      ((walkFields fields).flatMap (FieldSpec.referenceFaults env)).head? := by
  match fields with
  | [] => rfl
  | (key, spec) :: rest =>
    have hspec := spec.failure?_bind
    have hrest := failure?_bindFields rest
    rw [walkFields, List.flatMap_append, List.head?_append, ← hspec, ← hrest, bindFields]
    cases spec.bind env with
    | error e => rfl
    | ok binding => cases bindFields env rest <;> rfl

end

mutual

theorem FieldSpec.pathTexts_of_bind (spec : FieldSpec) (hkeys : spec.DistinctKeys)
    {binding : Binding} (h : spec.bind env = .ok binding) :
    binding.pathTexts = spec.walk.flatMap FieldSpec.paths := by
  cases spec with
  | path text =>
    obtain rfl := Except.ok.inj h
    rfl
  | rule text flatten =>
    obtain rfl := Except.ok.inj h
    rfl
  | call target args =>
    obtain ⟨_, _, _, _, _, _, _, rfl⟩ := bindCall_eq_ok_iff.mp h
    rfl
  | mapper name source =>
    obtain ⟨id, _, rfl⟩ := bind_mapper_eq_ok_iff.mp h
    simp only [Binding.pathTexts, FieldSpec.walk, List.flatMap_singleton, FieldSpec.paths]
  | tree fields =>
    obtain ⟨bindings, hbindings, rfl⟩ := bind_tree_eq_ok_iff.mp h
    obtain ⟨hnodup, hbelow⟩ := hkeys
    rw [← keys_of_bindFields hbindings] at hnodup
    rw [Binding.pathTexts, Entries.ofList_eq_self hnodup,
      pathTextsIn_of_bindFields fields hbelow hbindings, FieldSpec.walk,
      List.flatMap_cons]
    rfl

theorem pathTextsIn_of_bindFields (fields : List (String × FieldSpec))
    (hkeys : DistinctKeysIn fields) {bindings : List (String × Binding)}
    (h : bindFields env fields = .ok bindings) :
    pathTextsIn bindings = (walkFields fields).flatMap FieldSpec.paths := by
  match fields with
  | [] =>
    obtain rfl := Except.ok.inj h
    rfl
  | (key, spec) :: rest =>
    obtain ⟨binding, hbinding, others, hothers, rfl⟩ := bindFields_cons_eq_ok_iff.mp h
    rw [pathTextsIn, walkFields, List.flatMap_append, spec.pathTexts_of_bind hkeys.1 hbinding,
      pathTextsIn_of_bindFields rest hkeys.2 hothers]

end

end Fields

mutual

theorem Binding.findSome?_visits (binding : Binding) (keys : List String) :
    (binding.visits (fun _ _ => []) [] keys).findSome? Visit.offence? =
      binding.pathTexts.findSome? unreadable? := by
  cases binding with
  | path text shape => rfl
  | transform f => rfl
  | mapper id source =>
    have hentered : reentered? [] keys id = none := reentered?_eq_none_iff.mpr List.not_mem_nil
    simp only [Binding.visits, Binding.pathTexts, List.findSome?_singleton, Visit.offence?,
      hentered, Option.or_none]
    cases source with
    | none => rfl
    | some text => rw [Option.toList_some, List.findSome?_singleton, Option.bind_some]
  | tree bindings =>
    rw [Binding.visits, Binding.pathTexts, List.findSome?_cons, Visit.offence?]
    exact findSome?_visitsIn bindings keys

theorem findSome?_visitsIn (bindings : List (String × Binding)) (keys : List String) :
    (visitsIn (fun _ _ => []) [] keys bindings).findSome? Visit.offence? =
      (pathTextsIn bindings).findSome? unreadable? := by
  match bindings with
  | [] => rfl
  | (key, binding) :: rest =>
    rw [visitsIn, pathTextsIn, List.findSome?_append, List.findSome?_append,
      binding.findSome?_visits, findSome?_visitsIn rest]

end

theorem failure?_buildBindings_of_embedded {e : List String → MapperId → Except Error Procedure}
    {bindings : List (String × Binding)}
    (h : ∀ j ∈ embeddedIn bindings, ∀ keys, ∃ p, e keys j = .ok p) (mode : Mode)
    (defaults : Defaults) (keys : List String) :
    failure? (buildBindings e mode defaults keys bindings) =
      (pathTextsIn bindings).findSome? unreadable? := by
  rw [← findSome?_visitsIn bindings keys]
  refine buildBindings_failure? bindings mode defaults keys fun j hj keys => ?_
  rw [failure?_eq_none_iff.mpr (h j hj keys), reentered?_eq_none_iff.mpr List.not_mem_nil]
  rfl

namespace Loader

variable {l : Loader} {d : Document}

/-- The faults of a document decide whether it is loaded, and the first of them is the error. -/
theorem Sound.failure?_load (hl : l.Sound)
    (hcompiled : ∀ name id, l.mappers.get? name = some id → l.store.IsCompiled id)
    (hkeys : d.DistinctKeys) :
    failure? (l.load d).1 = (d.faults l.toEnvironment).head? := by
  have hfields : failure? (bindFields l.toEnvironment d.fields) = _ := failure?_bindFields d.fields
  rw [Document.faults, List.head?_append, List.head?_filterMap, ← hfields]
  cases hb : bindFields l.toEnvironment d.fields with
  | error e =>
    rw [load_of_bindFields_error hb]
    rfl
  | ok bindings =>
    obtain ⟨hnodup, hbelow⟩ := hkeys
    rw [← keys_of_bindFields hb] at hnodup
    have hs : (l.draft d bindings).Coherent := (hl.reachable_draft hb).coherent
    have hnew : ¬ (l.draft d bindings).IsCompiled l.store.size := by
      rw [Store.IsCompiled, mapper_draft]
      exact Bool.false_ne_true
    -- The mappers inside are compiled already, so none of them leads back to the new one.
    have hinside : ∀ j ∈ embeddedIn bindings, ∀ keys,
        ∃ p, (l.draft d bindings).build [l.store.size] keys j = .ok p := by
      intro j hj keys
      obtain ⟨name, hname⟩ := registered_of_bindFields d.fields hb j hj
      obtain ⟨p, hp⟩ := Store.isCompiled_iff.mp (hcompiled name j hname)
      rw [← Store.mapper_add_of_ne (hl.registered name j hname).ne] at hp
      exact ⟨p, hs.cached j p hp _ keys (List.forall_mem_singleton.mpr hnew)⟩
    have hbuild := failure?_buildBindings_of_embedded hinside d.mode d.defaults []
    rw [pathTextsIn_of_bindFields d.fields hbelow hb] at hbuild
    rw [load_of_bindFields hb, hs.compile_eq_build size_lt_size_draft,
      Store.build_of_not_mem List.not_mem_nil, mapper_draft, Entries.ofList_eq_self hnodup,
      failure?_mapError, failure?_map, failure?_ok, Option.none_or]
    calc
      _ = Option.map LoadError.mapping (failure? (buildBindings _ d.mode d.defaults [] bindings)) :=
        congrArg (Option.map LoadError.mapping) (failure?_map (Procedure.mk d.mode) _)
      _ = _ := by
        rw [hbuild, List.map_findSome?]
        rfl

/--
A loader whose registered mappers are compiled loads just the documents that refer
only to what is there. Of any other it reports the first fault, which is never that
a mapper is compiled already or embeds itself.
-/
theorem load_accepts_resolvable (hs : l.store.Reachable)
    (hcompiled : ∀ name id, l.mappers.get? name = some id → l.store.IsCompiled id)
    (hkeys : d.DistinctKeys) :
    ((∃ id, (l.load d).1 = .ok id) ↔ d.Resolvable l.toEnvironment) ∧
      ∀ e, ((l.load d).1 = .error e ↔ (d.faults l.toEnvironment).head? = some e) ∧
        ((l.load d).1 = .error e → e ≠ .mapping .alreadyCompiled ∧ ¬ e.IsCircular) := by
  have hl : l.Sound := ⟨hs, fun name id h => Store.lt_size_of_isCompiled (hcompiled name id h)⟩
  have hfailure := hl.failure?_load hcompiled hkeys
  have herror : ∀ e, (l.load d).1 = .error e ↔ (d.faults l.toEnvironment).head? = some e :=
    fun e => by rw [← hfailure, failure?_eq_some_iff]
  refine ⟨?_, fun e => ⟨herror e, fun he => ?_⟩⟩
  · rw [← failure?_eq_none_iff, hfailure, List.head?_eq_none_iff, Document.faults_eq_nil_iff]
  · have hfault : e ∈ d.faults l.toEnvironment := List.mem_of_head? ((herror e).mp he)
    constructor
    · rintro rfl
      obtain ⟨_, _, h⟩ := Document.invalidPath_of_mem_faults hfault
      cases h
    · rintro ⟨field, rfl⟩
      obtain ⟨_, _, h⟩ := Document.invalidPath_of_mem_faults hfault
      cases h

/-- A path that cannot be read, and behind it, inside a tree, a call without a function. -/
def broken : Document where
  name := "broken"
  mode := .failFast
  defaults := .empty
  fields :=
    [("first", .path "a..b"),
      ("tree", .tree [("inner", .call "math." [.path "["]), ("outer", .mapper "supplier" none)])]

theorem load_accepts_resolvable_broken :
    let l := ((Client.start .builtins).after (.loadAndRegister customer)).loader
    (∃ id, (l.load order).1 = .ok id) ∧ (l.load broken).1 = .error (.invalidCall "math.") := by
  have hreachable : ((Client.start .builtins).after (.loadAndRegister customer)).Reachable :=
    .step (.start .builtins) trivial
  have haccepts {d : Document} (hkeys : d.DistinctKeys) := load_accepts_resolvable
    hreachable.settled.reachable (fun _ _ h => hreachable.settled.isCompiled_of_get? h) hkeys
  have horder : order.DistinctKeys :=
    ⟨by decide, trivial, trivial, ⟨by decide, trivial, trivial, trivial⟩, trivial⟩
  have hbroken : broken.DistinctKeys :=
    ⟨by decide, trivial, ⟨by decide, trivial, trivial, trivial⟩, trivial⟩
  exact ⟨(haccepts horder).1.mpr (Document.faults_eq_nil_iff.mp (by decide +kernel)),
    ((haccepts hbroken).2 _).1.mpr (by decide +kernel)⟩

end Loader

end Reshape
