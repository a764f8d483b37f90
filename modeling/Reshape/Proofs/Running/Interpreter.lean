import Reshape.Proofs.Composition.Reachable

/-! # Interpreting configurations

A configuration can be run without compiling it. Paths are then read where they
are used, embedded mappers run with what is in the store, and a default is looked
up in the defaults of the root when a value turns out to be absent. A procedure
does what the interpretation of its configuration does.
-/

namespace Reshape

def Outcome.fail (key : String) (failure : Failure) (o : Outcome) : Outcome :=
  { o with errors := o.errors ++ [⟨failure.scope, key, failure.fault⟩] }

def readable? (text : String) : Option Path :=
  match Path.parse text with
  | .ok path => some path
  | .error _ => none

/-- The value that an embedded mapper is given; a null one counts as absent. -/
def selected? (text? : Option String) (source : Value) :
    Option (Except MappingFault (Option Value)) :=
  match text? with
  | none => some (.ok (if source.isNull then none else some source))
  | some text => (readable? text).map fun path =>
    match path.resolve source with
    | .error fault => .error fault
    | .ok none => .ok none
    | .ok (some v) => .ok (if v.isNull then none else some v)

mutual

/--
What a binding gives for a source, where `run` runs other mappers. Target keys
lead to the binding through inline trees, from the object that has the defaults
`root`. There is no answer if a path cannot be read, or if another mapper gives none.
-/
def Binding.interpret (run : MapperId → Value → Option (Except MappingFault Outcome)) (mode : Mode)
    (root : Defaults) (source : Value) (keys : List String) (key : String) :
    Binding → Option (Except Failure Contribution)
  | .path text shape => do
    let path ← readable? text
    match path.resolveAs shape source with
    | .error fault => return .error ⟨.field, fault⟩
    | .ok none => return .ok ⟨root.resolve (keys ++ [key]), []⟩
    | .ok (some v) => return .ok ⟨some v, []⟩
  | .transform f =>
    match f source with
    | .error fault => return .error ⟨.field, fault⟩
    | .ok none => return .ok ⟨root.resolve (keys ++ [key]), []⟩
    | .ok (some v) => return .ok ⟨some v, []⟩
  | .mapper id text? => do
    match ← selected? text? source with
    | .error fault => return .error ⟨.mapper, fault⟩
    | .ok none => return .ok ⟨root.resolve (keys ++ [key]), []⟩
    | .ok (some v) =>
      match ← run id v with
      | .error fault => return .error ⟨.mapper, .nested fault.message⟩
      | .ok o =>
        match mode, o.errors with
        | .failFast, first :: _ => return .error ⟨.mapper, .nested first.fault.message⟩
        | _, errors => return .ok ⟨some (.object o.result), errors.map (.under key)⟩
  | .tree bindings => do
    match ← interpretBindings run mode root source (keys ++ [key]) .empty bindings with
    | .error fault => return .error ⟨.nestedField, fault⟩
    | .ok o => return .ok ⟨some (.object o.result), o.errors.map (.underTree key)⟩

def interpretBindings (run : MapperId → Value → Option (Except MappingFault Outcome)) (mode : Mode)
    (root : Defaults) (source : Value) (keys : List String) (before : Outcome) :
    List (String × Binding) → Option (Except MappingFault Outcome)
  | [] => return .ok before
  | (key, binding) :: rest => do
    match ← binding.interpret run mode root source keys key with
    | .ok c => interpretBindings run mode root source keys (before.add key c) rest
    | .error failure =>
      match mode with
      | .failFast => return .error failure.fault
      | .safe => interpretBindings run mode root source keys (before.fail key failure) rest

end

def Configuration.interpret (run : MapperId → Value → Option (Except MappingFault Outcome))
    (mode : Mode) (defaults : Defaults) (config : Configuration) (source : Value) :
    Option (Except MappingFault Outcome) :=
  interpretBindings run mode defaults source [] .empty config

/-- A mapper on a source; there is no answer inside the same mapper. -/
def Store.interpret (s : Store) (active : List MapperId) (id : MapperId) (source : Value) :
    Option (Except MappingFault Outcome) :=
  if id ∈ active then none
  else if id < s.size then
    (s.mapper id).config.interpret (fun j v => s.interpret (id :: active) j v) (s.mapper id).mode
      (s.mapper id).defaults source
  else some (.ok .empty)
termination_by s.unentered active
decreasing_by exact unentered_cons_lt ‹_› ‹_›

theorem readable?_eq_some {text : String} {path : Path} (h : Path.read text = .ok path) :
    readable? text = some path := by
  rw [readable?]
  cases hp : Path.parse text with
  | ok path' =>
    simp only [Path.read, hp] at h
    exact congrArg some (Except.ok.inj h)
  | error reason => simp [Path.read, hp, Except.mapError] at h

theorem selected?_eq_some {text? : Option String} {at? : Option Path} (source : Value)
    (h : readSource text? = .ok at?) :
    selected? text? source = some (embeddedSource at? source) := by
  cases text? with
  | none =>
    obtain rfl := Except.ok.inj h
    cases hn : source.isNull <;> simp [selected?, embeddedSource, Option.filter, hn]
  | some text =>
    obtain ⟨path, hpath, rfl⟩ := map_eq_ok_iff.mp h
    simp only [selected?, readable?_eq_some hpath, Option.map_some, embeddedSource]
    rcases path.resolve source with fault | _ | v
    · rfl
    · rfl
    · cases hn : v.isNull <;> simp [Except.map, Option.filter, hn]

section Fields

variable {e : List String → MapperId → Except Error Procedure}
  {run : MapperId → Value → Option (Except MappingFault Outcome)} {mode : Mode} {root : Defaults}
  {source : Value}

mutual

theorem Binding.interpret_of_build (binding : Binding) (keys place : List String) (key : String)
    {plan : Plan}
    (h : ∀ j ∈ binding.embedded, ∀ place p, e place j = .ok p →
      ∀ v, run j v = some (p.evaluate v))
    (hplan : binding.build e mode (root.under keys) place key = .ok plan) :
    binding.interpret run mode root source keys key =
      some ((plan.contribution mode source key).map
        (.orDefault (plan.default (root.under keys) key))) := by
  cases binding with
  | path text shape =>
    obtain ⟨path, hpath, rfl⟩ := Binding.build_path_eq_ok_iff.mp hplan
    simp only [Binding.interpret, readable?_eq_some hpath, Option.bind_eq_bind, Option.bind_some,
      Plan.contribution, Plan.default, Defaults.get?_under]
    rcases path.resolveAs shape source with fault | _ | v <;> rfl
  | transform f =>
    obtain rfl := Except.ok.inj hplan
    simp only [Binding.interpret, Plan.contribution, Plan.default, Defaults.get?_under]
    rcases f source with fault | _ | v <;> rfl
  | mapper id text? =>
    obtain ⟨at?, hat, p, hp, rfl⟩ := Binding.build_mapper_eq_ok_iff.mp hplan
    have hrun := h id (mem_embedded_mapper id text?) place p hp
    simp only [Binding.interpret, selected?_eq_some source hat, Option.bind_eq_bind,
      Option.bind_some, Plan.contribution, Plan.default, Defaults.get?_under]
    rcases embeddedSource at? source with fault | _ | v
    · rfl
    · rfl
    · simp only [hrun, Option.bind_some]
      rcases p.evaluate v with fault | ⟨result, _ | ⟨first, rest⟩⟩
      · rfl
      · cases mode <;> rfl
      · cases mode <;> rfl
  | tree bindings =>
    obtain ⟨fields, hfields, rfl⟩ := Binding.build_tree_eq_ok_iff.mp hplan
    rw [Defaults.subtree_under] at hfields
    have hb := interpretBindings_of_build bindings (keys ++ [key]) place .empty h hfields
    simp only [Binding.interpret, hb, Option.bind_eq_bind, Option.bind_some, Plan.contribution,
      Plan.default, Procedure.evaluate]
    rcases evaluateFields mode source .empty fields with fault | o <;> rfl

theorem interpretBindings_of_build (bindings : List (String × Binding))
    (keys place : List String) (before : Outcome) {fields : List Field}
    (h : ∀ j ∈ embeddedIn bindings, ∀ place p, e place j = .ok p →
      ∀ v, run j v = some (p.evaluate v))
    (hf : buildBindings e mode (root.under keys) place bindings = .ok fields) :
    interpretBindings run mode root source keys before bindings =
      some (evaluateFields mode source before fields) := by
  match bindings with
  | [] =>
    obtain rfl := Except.ok.inj hf
    rfl
  | (key, binding) :: rest =>
    obtain ⟨hbinding, hmore⟩ := forall_embeddedIn_cons.mp h
    obtain ⟨plan, hplan, others, hothers, rfl⟩ := buildBindings_cons_eq_ok_iff.mp hf
    have hb := binding.interpret_of_build keys (place ++ [key]) key hbinding hplan
    have hrest := fun before =>
      interpretBindings_of_build rest keys place before hmore hothers
    simp only [interpretBindings, hb, Option.bind_eq_bind, Option.bind_some, evaluateFields]
    rcases plan.contribution mode source key with failure | c
    · cases mode with
      | failFast => rfl
      | safe => exact hrest _
    · exact hrest _

end

theorem Configuration.interpret_of_build {config : Configuration} {defaults : Defaults}
    {place : List String} {p : Procedure}
    (h : ∀ j ∈ config.embedded, ∀ place p, e place j = .ok p → ∀ v, run j v = some (p.evaluate v))
    (hp : config.build e mode defaults place = .ok p) (source : Value) :
    config.interpret run mode defaults source = some (p.evaluate source) := by
  obtain ⟨fields, hfields, rfl⟩ := Configuration.build_eq_ok_iff.mp hp
  exact interpretBindings_of_build config [] place .empty h hfields

end Fields

namespace Store

variable {s : Store}

theorem interpret_of_not_mem {active : List MapperId} {id : MapperId} (h : id ∉ active) :
    s.interpret active id =
      (s.mapper id).config.interpret (s.interpret (id :: active)) (s.mapper id).mode
        (s.mapper id).defaults := by
  funext source
  rw [interpret, if_neg h]
  split
  · rfl
  · rename_i hid
    rw [mapper_of_size_le (Nat.le_of_not_lt hid)]
    rfl

/-- A mapper for which there is a procedure is interpreted as the procedure runs. -/
theorem interpret_of_build {stack : List MapperId} {place : List String} {id : MapperId}
    {p : Procedure} (hp : s.build stack place id = .ok p) (source : Value) :
    s.interpret stack id source = some (p.evaluate source) := by
  induction stack, id using s.entering_induction generalizing place p source with
  | entered stack id hmem =>
    rw [build_of_mem hmem] at hp
    cases hp
  | enter stack id hmem ih =>
    rw [build_of_not_mem hmem] at hp
    rw [interpret_of_not_mem hmem]
    exact Configuration.interpret_of_build (fun j hj place p hp source => ih j hj hp source) hp
      source

/-- A configuration on a source, with the mappers of a store. -/
def interpretConfiguration (s : Store) (config : Configuration) (defaults : Defaults) (mode : Mode)
    (source : Value) : Option (Except Error Outcome) :=
  (config.interpret (s.interpret []) mode defaults source).map (·.mapError .mapping)

/-- A procedure does on every source what the interpretation of its configuration does. -/
theorem run_eq_interpretConfiguration (hs : s.Reachable) {config : Configuration}
    (hconfig : config.Within s.size) {defaults : Defaults} {mode : Mode} {p : Procedure}
    (hp : (s.compileConfiguration config defaults mode).1 = .ok p) (source : Value) :
    s.interpretConfiguration config defaults mode source = some (p.run source) := by
  obtain ⟨t, hcompile, _⟩ := hs.coherent.compileConfiguration hconfig defaults mode
  rw [hcompile] at hp
  have hrun : ∀ j place p, s.build [] place j = .ok p →
      ∀ v, s.interpret [] j v = some (p.evaluate v) :=
    fun _ _ _ hp v => interpret_of_build hp v
  rw [interpretConfiguration, Configuration.interpret_of_build (fun j _ => hrun j) hp source]
  rfl

def naming : Store := Store.empty.after (.create [("name", .path "name" .nested)] .empty .failFast)

def ownedPart : Configuration :=
  [("part", .tree [("size", .path "size" .nested), ("owner", .mapper 0 (some "user"))])]

def ownedPartDefaults : Defaults := ⟨[("part", .object [("size", .int 1)])]⟩

theorem reachable_naming : naming.Reachable := .step .empty (by decide)

theorem run_eq_interpretConfiguration_ownedPart :
    ∃ p, (naming.compileConfiguration ownedPart ownedPartDefaults .safe).1 = .ok p ∧
      ∀ source, naming.interpretConfiguration ownedPart ownedPartDefaults .safe source =
        some (p.run source) := by
  obtain ⟨p, hp⟩ : ∃ p, (naming.compileConfiguration ownedPart ownedPartDefaults .safe).1 = .ok p :=
    failure?_eq_none_iff.mp (by decide +kernel)
  exact ⟨p, hp, run_eq_interpretConfiguration reachable_naming (by decide) hp⟩

end Store

end Reshape
