import Reshape.Proofs.Composition.Reachable

/-! # Modes of procedures

An inline tree runs in the mode of the procedure around it, and an embedded
mapper in its own. A procedure that is compiled for one mode differs from that
for the other in its own mode and in those of its inline trees.
-/

namespace Reshape

@[simp] theorem Outcome.errors_add (key : String) (c : Contribution) (o : Outcome) :
    (o.add key c).errors = o.errors ++ c.errors := rfl

@[simp] theorem Contribution.errors_orDefault (default : Option Value) (c : Contribution) :
    (c.orDefault default).errors = c.errors := rfl

/-- What a field adds to the outcome of those before it, or the fault that ends the run. -/
def Field.step (mode : Mode) (source : Value) (before : Outcome) :
    Field → Except MappingFault Outcome
  | .mk key plan default =>
    (settle mode key ((plan.contribution mode source key).map (.orDefault default))).map
      (before.add key)

section Fields

variable {mode : Mode} {source : Value} {key : String} {plan : Plan} {c : Contribution}
  {failure : Failure} (before : Outcome) (default : Option Value) (rest : List Field)

theorem evaluateFields_cons (f : Field) :
    evaluateFields mode source before (f :: rest) =
      f.step mode source before >>= fun o => evaluateFields mode source o rest := by
  obtain ⟨key, plan, default⟩ := f
  rw [evaluateFields, Field.step]
  rcases settle mode key _ with fault | c <;> rfl

theorem evaluateFields_append (fields : List Field) :
    evaluateFields mode source before (fields ++ rest) =
      evaluateFields mode source before fields >>= fun o => evaluateFields mode source o rest := by
  induction fields generalizing before with
  | nil => rfl
  | cons f fields ih => simp only [List.cons_append, evaluateFields_cons, bind_assoc, ih]

theorem evaluateFields_of_ok (h : plan.contribution mode source key = .ok c) :
    evaluateFields mode source before (.mk key plan default :: rest) =
      evaluateFields mode source (before.add key (c.orDefault default)) rest := by
  rw [evaluateFields, h]
  rfl

theorem evaluateFields_safe_of_error (h : plan.contribution .safe source key = .error failure) :
    evaluateFields .safe source before (.mk key plan default :: rest) =
      evaluateFields .safe source
        (before.add key ⟨none, [⟨failure.scope, key, failure.fault⟩]⟩) rest := by
  rw [evaluateFields, h]
  rfl

theorem evaluateFields_failFast_of_error
    (h : plan.contribution .failFast source key = .error failure) :
    evaluateFields .failFast source before (.mk key plan default :: rest) =
      .error failure.fault := by
  rw [evaluateFields, h]
  rfl

end Fields

mutual

/-- Inline trees have the mode of the procedure around them, also in embedded mappers. -/
def Procedure.Uniform : Procedure → Prop
  | .mk mode fields => UniformFields mode fields

def UniformFields (mode : Mode) : List Field → Prop
  | [] => True
  | .mk _ plan _ :: rest => plan.Uniform mode ∧ UniformFields mode rest

def Plan.Uniform (mode : Mode) : Plan → Prop
  | .path .. => True
  | .transform _ => True
  | .mapper procedure _ => procedure.Uniform
  | .tree procedure => procedure.mode = mode ∧ procedure.Uniform

end

mutual

/-- A procedure with another mode, which its inline trees take over. -/
def Procedure.withMode (mode : Mode) : Procedure → Procedure
  | .mk _ fields => .mk mode (fieldsWithMode mode fields)

def fieldsWithMode (mode : Mode) : List Field → List Field
  | [] => []
  | .mk key plan default :: rest => .mk key (plan.withMode mode) default :: fieldsWithMode mode rest

def Plan.withMode (mode : Mode) : Plan → Plan
  | .path path shape => .path path shape
  | .transform f => .transform f
  | .mapper procedure at? => .mapper procedure at?
  | .tree procedure => .tree (procedure.withMode mode)

end

@[simp] theorem Plan.default_withMode (plan : Plan) (mode : Mode) (defaults : Defaults)
    (key : String) : (plan.withMode mode).default defaults key = plan.default defaults key := by
  cases plan <;> rfl

section Build

variable {e : List String → MapperId → Except Error Procedure} {mode mode' : Mode}

mutual

theorem Binding.build_uniform (binding : Binding) {defaults : Defaults} {keys : List String}
    {key : String} {plan : Plan}
    (h : ∀ j ∈ binding.embedded, ∀ keys p, e keys j = .ok p → p.Uniform)
    (hplan : binding.build e mode defaults keys key = .ok plan) : plan.Uniform mode := by
  cases binding with
  | path text shape =>
    obtain ⟨path, _, rfl⟩ := Binding.build_path_eq_ok_iff.mp hplan
    trivial
  | transform f =>
    obtain rfl := Except.ok.inj hplan
    trivial
  | mapper id source =>
    obtain ⟨at?, _, p, hp, rfl⟩ := Binding.build_mapper_eq_ok_iff.mp hplan
    exact h id (mem_embedded_mapper id source) keys p hp
  | tree bindings =>
    obtain ⟨fields, hfields, rfl⟩ := Binding.build_tree_eq_ok_iff.mp hplan
    exact ⟨rfl, buildBindings_uniform bindings h hfields⟩

theorem buildBindings_uniform (bindings : List (String × Binding)) {defaults : Defaults}
    {keys : List String} {fields : List Field}
    (h : ∀ j ∈ embeddedIn bindings, ∀ keys p, e keys j = .ok p → p.Uniform)
    (hf : buildBindings e mode defaults keys bindings = .ok fields) :
    UniformFields mode fields := by
  match bindings with
  | [] =>
    obtain rfl := Except.ok.inj hf
    trivial
  | (key, binding) :: rest =>
    obtain ⟨hb, hrest⟩ := forall_embeddedIn_cons.mp h
    obtain ⟨plan, hplan, others, hothers, rfl⟩ := buildBindings_cons_eq_ok_iff.mp hf
    exact ⟨binding.build_uniform hb hplan, buildBindings_uniform rest hrest hothers⟩

end

mutual

theorem Binding.build_withMode (binding : Binding) (defaults : Defaults) (keys : List String)
    (key : String) :
    binding.build e mode' defaults keys key =
      Plan.withMode mode' <$> binding.build e mode defaults keys key := by
  cases binding with
  | path text shape =>
    simp only [Binding.build]
    cases Path.read text <;> rfl
  | transform f => rfl
  | mapper id source =>
    simp only [Binding.build]
    cases readSource source with
    | error fault => rfl
    | ok at? =>
      simp only [ok_bind]
      cases e keys id <;> rfl
  | tree bindings =>
    simp only [Binding.build, buildBindings_withMode bindings (defaults.subtree key) keys]
    cases buildBindings e mode (defaults.subtree key) keys bindings <;> rfl

theorem buildBindings_withMode (bindings : List (String × Binding)) (defaults : Defaults)
    (keys : List String) :
    buildBindings e mode' defaults keys bindings =
      fieldsWithMode mode' <$> buildBindings e mode defaults keys bindings := by
  match bindings with
  | [] => rfl
  | (key, binding) :: rest =>
    simp only [buildBindings, binding.build_withMode defaults (keys ++ [key]) key,
      buildBindings_withMode rest defaults keys]
    cases binding.build e mode defaults (keys ++ [key]) key with
    | error fault => rfl
    | ok plan =>
      cases buildBindings e mode defaults keys rest with
      | error fault => rfl
      | ok fields => simp [fieldsWithMode, pure, Except.pure]

end

theorem Configuration.build_withMode (config : Configuration) (defaults : Defaults)
    (keys : List String) :
    config.build e mode' defaults keys =
      Procedure.withMode mode' <$> config.build e mode defaults keys := by
  rw [Configuration.build, Configuration.build, buildBindings_withMode]
  cases buildBindings e mode defaults keys config <;> rfl

end Build

namespace Store

variable {s t : Store} {config : Configuration} {defaults : Defaults} {mode : Mode} {p : Procedure}

theorem build_uniform {stack : List MapperId} {keys : List String} {id : MapperId}
    (hp : s.build stack keys id = .ok p) : p.Uniform := by
  induction stack, id using s.entering_induction generalizing keys p with
  | entered stack id hmem =>
    rw [build_of_mem hmem] at hp
    cases hp
  | enter stack id hmem ih =>
    rw [build_of_not_mem hmem] at hp
    obtain ⟨fields, hfields, rfl⟩ := Configuration.build_eq_ok_iff.mp hp
    exact buildBindings_uniform _ (fun j hj keys p hp => ih j hj hp) hfields

theorem Coherent.compileConfiguration_uniform (hs : s.Coherent) (hconfig : config.Within s.size)
    (hp : (s.compileConfiguration config defaults mode).1 = .ok p) : p.mode = mode ∧ p.Uniform := by
  obtain ⟨fields, hfields, rfl⟩ := hs.fields_of_compileConfiguration hconfig hp
  exact ⟨rfl, buildBindings_uniform config (fun j _ keys p hp => build_uniform hp) hfields⟩

theorem Coherent.compileConfiguration_withMode (hs : s.Coherent) (ht : t.Coherent)
    (hst : t.forget = s.forget) (hconfig : config.Within s.size) (defaults : Defaults)
    (mode mode' : Mode) :
    (t.compileConfiguration config defaults mode').1 =
      Procedure.withMode mode' <$> (s.compileConfiguration config defaults mode).1 := by
  have hconfig' : config.Within t.size := by rwa [size_eq_of_forget hst]
  have hbuild : t.build [] = s.build [] := by
    funext keys id
    exact build_eq_of_forget hst
  rw [hs.compileConfiguration_eq_build hconfig, ht.compileConfiguration_eq_build hconfig', hbuild,
    Configuration.build_withMode]

end Store

end Reshape
