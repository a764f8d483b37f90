import Reshape.Extension.Builtin
import Reshape.Proofs.Loading.History
import Reshape.Proofs.Running.Interpreter

/-! # Interpreting documents

A document can be run as it stands, without bindings and procedures. Paths are
read where they are used, functions and mappers are found by their names, and a
default is looked up in the defaults of the document when a value is absent. A
loaded mapper does what the interpretation of its document does.
-/

namespace Reshape

/-- The extension and the function that a target names: what is before its first dot, and behind. -/
def calledName (target : String) : String × String :=
  (.ofList (target.toList.takeWhile (· ≠ '.')),
    .ofList (target.toList.dropWhile (· ≠ '.')).tail)

def Registry.named? (r : Registry) (name : String × String) : Option Function :=
  (r.extensions.get? name.1).bind fun e => e.functions.get? name.2

/-- The value of an argument; what its path does not find, or cannot be followed to, is null. -/
def Argument.valueOn? (source : Value) : Argument → Option Value
  | .path text => (readable? text).map fun path =>
    match path.resolve source with
    | .ok (some v) => v
    | .ok none => .null
    | .error _ => .null
  | .literal v => some v

/-- What a field takes from the answer of a function; null counts as absent. -/
def answered : Except LoadError Value → Except MappingFault (Option Value)
  | .ok .null => .ok none
  | .ok v => .ok (some v)
  | .error (.transform fault) => .error (.transform fault.message)
  | .error other => .error (.transform other.message)

/-- A field with its value, or with the default at its place if that is absent. -/
def filled (root : Defaults) (place : List String) (found : Except MappingFault (Option Value)) :
    Except Failure Contribution :=
  match found with
  | .error fault => .error ⟨.field, fault⟩
  | .ok none => .ok ⟨root.resolve place, []⟩
  | .ok (some v) => .ok ⟨some v, []⟩

mutual

/--
What a field of a document gives for a source, where `run` runs registered
mappers. Target keys lead to the field through inline trees, from the object that
has the defaults `root`. There is no answer if a path cannot be read, if a name
is not registered, or if a mapper gives none.
-/
def FieldSpec.interpret (env : Environment)
    (run : MapperId → Value → Option (Except MappingFault Outcome)) (mode : Mode) (root : Defaults)
    (source : Value) (keys : List String) (key : String) :
    FieldSpec → Option (Except Failure Contribution)
  | .path text =>
    (readable? text).map fun path => filled root (keys ++ [key]) (path.resolve source)
  | .rule text flatten =>
    (readable? text).map fun path =>
      let found := if flatten then path.resolveFlat source else path.resolve source
      filled root (keys ++ [key]) found
  | .call target args => do
    let f ← env.extensions.named? (calledName target)
    let values ← args.mapM (Argument.valueOn? source)
    return filled root (keys ++ [key]) (answered (f values))
  | .mapper name text? => do
    let id ← env.mappers.get? name
    match ← selected? text? source with
    | .error fault => return .error ⟨.mapper, fault⟩
    | .ok none => return .ok ⟨root.resolve (keys ++ [key]), []⟩
    | .ok (some v) =>
      match ← run id v with
      | .error fault => return .error ⟨.mapper, .nested fault.message⟩
      | .ok o =>
        match mode, o.errors with
        | .failFast, first :: _ => return .error ⟨.mapper, .nested first.fault.message⟩
        | _, errors => return .ok ⟨some (.object o.result), errors.map (.under key)⟩
  | .tree fields => do
    match ← interpretFields env run mode root source (keys ++ [key]) .empty fields with
    | .error fault => return .error ⟨.nestedField, fault⟩
    | .ok o => return .ok ⟨some (.object o.result), o.errors.map (.underTree key)⟩

def interpretFields (env : Environment)
    (run : MapperId → Value → Option (Except MappingFault Outcome)) (mode : Mode) (root : Defaults)
    (source : Value) (keys : List String) (before : Outcome) :
    List (String × FieldSpec) → Option (Except MappingFault Outcome)
  | [] => return .ok before
  | (key, spec) :: rest => do
    match ← spec.interpret env run mode root source keys key with
    | .ok c => interpretFields env run mode root source keys (before.add key c) rest
    | .error failure =>
      match mode with
      | .failFast => return .error failure.fault
      | .safe => interpretFields env run mode root source keys (before.fail key failure) rest

end

/-- What a mapper has given, unless it could not be compiled. -/
def executed? : Except Error Outcome → Option (Except MappingFault Outcome)
  | .ok o => some (.ok o)
  | .error (.mapping fault) => some (.error fault)
  | .error _ => none

/-- A document on a source, with the functions and mappers that are registered now. -/
def Loader.interpret (l : Loader) (d : Document) (source : Value) :
    Option (Except Error Outcome) :=
  let run id v := executed? (l.store.execute id v).1
  (interpretFields l.toEnvironment run d.mode d.defaults source [] .empty d.fields).map
    (·.mapError .mapping)

section Calls

theorem cut?_dot {cs before after : List Char} (h : Text.cut? ['.'] cs = some (before, after)) :
    cs.takeWhile (· ≠ '.') = before ∧ (cs.dropWhile (· ≠ '.')).tail = after := by
  induction cs generalizing before with
  | nil => simp [Text.cut?] at h
  | cons c cs ih =>
    by_cases hc : c = '.'
    · subst hc
      simp only [Text.cut?, List.isPrefixOf, beq_self_eq_true, Bool.and_self, if_true,
        Option.some.injEq, Prod.mk.injEq] at h
      obtain ⟨rfl, rfl⟩ := h
      simp
    · have hprefix : ['.'].isPrefixOf (c :: cs) = false := by
        simp [List.isPrefixOf, Ne.symm hc]
      rw [Text.cut?, hprefix] at h
      cases hcut : Text.cut? ['.'] cs with
      | none => simp [hcut] at h
      | some parts =>
        obtain ⟨first, last⟩ := parts
        simp only [hcut, Bool.false_eq_true, if_false, Option.map_some, Option.some.injEq,
          Prod.mk.injEq] at h
        obtain ⟨rfl, rfl⟩ := h
        obtain ⟨hfirst, hlast⟩ := ih hcut
        simp only [List.takeWhile_cons, List.dropWhile_cons, hc, ne_eq, not_false_eq_true,
          decide_true, if_true]
        exact ⟨congrArg (c :: ·) hfirst, hlast⟩

theorem calledName_of_callTarget? {target extension function : String}
    (h : callTarget? target = some (extension, function)) :
    calledName target = (extension, function) := by
  rw [callTarget?] at h
  cases hcut : Text.cut? ['.'] target.toList with
  | none => simp [hcut] at h
  | some parts =>
    obtain ⟨before, after⟩ := parts
    obtain ⟨hbefore, hafter⟩ := cut?_dot hcut
    simp only [hcut] at h
    split at h
    · cases h
    · obtain ⟨rfl, rfl⟩ := Prod.mk.inj (Option.some.inj h)
      rw [calledName, hbefore, hafter]

theorem named?_of_function {r : Registry} {extension function : String} {f : Function}
    (h : r.function extension function = .ok f) : r.named? (extension, function) = some f := by
  rw [Registry.function] at h
  rw [Registry.named?]
  cases he : r.extensions.get? extension with
  | none => simp [he] at h
  | some e =>
    simp only [he] at h
    cases hf : e.functions.get? function with
    | none => simp [hf] at h
    | some g =>
      simp only [hf, Except.ok.injEq] at h
      rw [Option.bind_some, hf, h]

theorem valueOn?_of_evaluator {arg : Argument} {evaluate : Value → Value} (source : Value)
    (h : arg.evaluator = .ok evaluate) : arg.valueOn? source = some (evaluate source) := by
  cases arg with
  | path text =>
    obtain ⟨path, hpath, rfl⟩ := map_eq_ok_iff.mp h
    simp only [Argument.valueOn?, readable?_eq_some hpath, Option.map_some, Path.resolveLenient]
    rcases path.resolve source with fault | _ | v <;> rfl
  | literal v =>
    obtain rfl := Except.ok.inj h
    rfl

theorem values_of_evaluators {args : List Argument} {evaluators : List (Value → Value)}
    (source : Value) (h : args.mapM Argument.evaluator = .ok evaluators) :
    args.mapM (Argument.valueOn? source) =
      some (evaluators.map fun evaluate => evaluate source) := by
  rw [mapM_eq_ok_iff] at h
  induction h with
  | nil => rfl
  | cons harg _ ih =>
    rw [List.mapM_cons, valueOn?_of_evaluator source harg, ih]
    rfl

theorem answered_eq_toTransform (f : Function) (evaluators : List (Value → Value))
    (source : Value) :
    answered (f (evaluators.map fun evaluate => evaluate source)) =
      f.toTransform evaluators source := by
  rw [Function.toTransform]
  rcases f (evaluators.map fun evaluate => evaluate source) with e | v
  · cases e <;> rfl
  · cases v <;> rfl

end Calls

section Fields

variable {env : Environment} {run : MapperId → Value → Option (Except MappingFault Outcome)}
  {mode : Mode} {root : Defaults} {source : Value}

theorem interpret_path (text : String) (shape : Shape) (keys : List String) (key : String) :
    (Binding.path text shape).interpret run mode root source keys key =
      (readable? text).map fun path =>
        filled root (keys ++ [key]) (path.resolveAs shape source) := by
  rw [Binding.interpret]
  cases readable? text with
  | none => rfl
  | some path =>
    rw [Option.bind_eq_bind, Option.bind_some, Option.map_some]
    rcases path.resolveAs shape source with fault | _ | v <;> rfl

theorem interpret_transform (f : Transform) (keys : List String) (key : String) :
    (Binding.transform f).interpret run mode root source keys key =
      some (filled root (keys ++ [key]) (f source)) := by
  rw [Binding.interpret]
  rcases f source with fault | _ | v <;> rfl

mutual

theorem FieldSpec.interpret_of_bind (spec : FieldSpec) (hkeys : spec.DistinctKeys)
    (keys : List String) (key : String) {binding : Binding} (h : spec.bind env = .ok binding) :
    spec.interpret env run mode root source keys key =
      binding.interpret run mode root source keys key := by
  cases spec with
  | path text =>
    obtain rfl := Except.ok.inj h
    rw [interpret_path]
    rfl
  | rule text flatten =>
    obtain rfl := Except.ok.inj h
    rw [interpret_path]
    cases flatten <;> rfl
  | call target args =>
    obtain ⟨_, _, htarget, f, hf, evaluators, hevaluators, rfl⟩ := bindCall_eq_ok_iff.mp h
    rw [interpret_transform, ← answered_eq_toTransform]
    simp only [FieldSpec.interpret, calledName_of_callTarget? htarget, named?_of_function hf,
      values_of_evaluators source hevaluators]
    rfl
  | mapper name text? =>
    obtain ⟨id, hid, rfl⟩ := bind_mapper_eq_ok_iff.mp h
    simp only [FieldSpec.interpret, hid, Option.bind_eq_bind, Option.bind_some]
    rfl
  | tree fields =>
    obtain ⟨bindings, hbindings, rfl⟩ := bind_tree_eq_ok_iff.mp h
    obtain ⟨hnodup, hbelow⟩ := hkeys
    rw [← keys_of_bindFields hbindings] at hnodup
    rw [FieldSpec.interpret, Entries.ofList_eq_self hnodup,
      interpretFields_of_bind fields hbelow (keys ++ [key]) .empty hbindings]
    rfl

/-- Interpreting fields is interpreting the bindings that they become. -/
theorem interpretFields_of_bind (fields : List (String × FieldSpec))
    (hkeys : DistinctKeysIn fields) (keys : List String) (before : Outcome)
    {bindings : List (String × Binding)} (h : bindFields env fields = .ok bindings) :
    interpretFields env run mode root source keys before fields =
      interpretBindings run mode root source keys before bindings := by
  match fields with
  | [] =>
    obtain rfl := Except.ok.inj h
    rfl
  | (key, spec) :: rest =>
    obtain ⟨binding, hbinding, others, hothers, rfl⟩ := bindFields_cons_eq_ok_iff.mp h
    have hspec := spec.interpret_of_bind hkeys.1 keys key hbinding
    have hrest := fun before => interpretFields_of_bind rest hkeys.2 keys before hothers
    simp only [interpretFields, hspec, hrest]
    rfl

end

end Fields

theorem executed?_run (p : Procedure) (source : Value) :
    executed? (p.run source) = some (p.evaluate source) := by
  rw [Procedure.run]
  cases p.evaluate source <;> rfl

namespace Loader

variable {l l' : Loader} {d : Document} {id : MapperId}

theorem Sound.build_of_draft (hl : l.Sound) {bindings : List (String × Binding)} {j : MapperId}
    (hj : j < l.store.size) : (l.draft d bindings).build [] [] j = l.store.build [] [] j := by
  symm
  refine Store.build_congr (· < l.store.size) (fun i _ k hik => ?_) (fun i hi => ?_) hj
  · exact hl.reachable.coherent.closed i k hik
  · exact (Store.forget_mapper_create hi).symm

/-- The procedure of a new mapper does what its document says. -/
theorem Sound.interpret_of_build (hl : l.Sound) (hkeys : d.DistinctKeys)
    {bindings : List (String × Binding)} (h : bindFields l.toEnvironment d.fields = .ok bindings)
    {p : Procedure} (hp : (l.draft d bindings).build [] [] l.store.size = .ok p) (source : Value) :
    l.interpret d source = some (p.run source) := by
  obtain ⟨hnodup, hbelow⟩ := hkeys
  rw [← keys_of_bindFields h] at hnodup
  rw [Store.build_of_not_mem List.not_mem_nil, mapper_draft, Entries.ofList_eq_self hnodup] at hp
  have hrun : ∀ j ∈ Configuration.embedded bindings, ∀ place q,
      (l.draft d bindings).build [l.store.size] place j = .ok q →
        ∀ v, executed? (l.store.execute j v).1 = some (q.evaluate v) := by
    intro j hj place q hq v
    obtain ⟨name, hname⟩ := registered_of_bindFields d.fields h j hj
    have hlt := hl.registered name j hname
    have hbuild : (l.draft d bindings).build [] [] j = .ok q :=
      Store.build_eq_ok_of_subset (List.nil_subset _) hq
    rw [hl.build_of_draft hlt] at hbuild
    rw [hl.reachable.coherent.execute_of_build hlt hbuild, executed?_run]
  have hinterpret := Configuration.interpret_of_build hrun hp source
  simp only [interpret, interpretFields_of_bind d.fields hbelow [] .empty h]
  exact congrArg (Option.map fun result => result.mapError Error.mapping) hinterpret

/--
A loaded mapper does, in its store and in every later one, what its document says
when it is interpreted with the functions and mappers that were registered when
it was loaded.
-/
theorem execute_eq_interpret (hl : l.Sound) (hkeys : d.DistinctKeys)
    (hload : l.load d = (.ok id, l')) {t : Store} (ht : l'.store.Later t) (source : Value) :
    l.interpret d source = some (t.execute id source).1 := by
  obtain ⟨rfl, bindings, p, hbindings, hp, hcompiled⟩ := hl.load_eq_ok hload
  have hreachable : l'.store.Reachable := by
    have hlater := hl.later_load d
    rw [hload] at hlater
    exact hlater.reachable hl.reachable
  rw [ht.execute_eq_run hreachable hcompiled, hl.interpret_of_build hkeys hbindings hp]

def customer : Document where
  name := "customer"
  mode := .safe
  defaults := .empty
  fields := [("name", .call "text.uppercase" [.path "name"])]

/-- A field of each kind, with a default inside the tree. -/
def order : Document where
  name := "order"
  mode := .failFast
  defaults := ⟨[("size", .object [("unit", .string "kg")])]⟩
  fields :=
    [("numbers", .rule "parcels.[].lines.[].number" true),
      ("customer", .mapper "customer" (some "buyer")),
      ("size", .tree [("unit", .path "unit"), ("weight", .path "weight")])]

theorem execute_eq_interpret_order :
    let l := ((Client.start .builtins).after (.loadAndRegister customer)).loader
    ∃ id l', l.load order = (.ok id, l') ∧
      ∀ source, l.interpret order source = some (l'.store.execute id source).1 := by
  have hreachable : ((Client.start .builtins).after (.loadAndRegister customer)).Reachable :=
    .step (.start .builtins) trivial
  have hkeys : order.DistinctKeys :=
    ⟨by decide, trivial, trivial, ⟨by decide, trivial, trivial, trivial⟩, trivial⟩
  obtain ⟨id, hid⟩ := failure?_eq_none_iff.mp (show failure? (((Client.start .builtins).after
    (.loadAndRegister customer)).loader.load order).1 = none by decide +kernel)
  exact ⟨id, _, Prod.ext hid rfl,
    execute_eq_interpret hreachable.settled.sound hkeys (Prod.ext hid rfl) .refl⟩

end Loader

end Reshape
