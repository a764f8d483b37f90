import Reshape.Proofs.Running.FailFast
import Reshape.Proofs.Running.SafeRun

/-! # Isolation of fields

The fields of an object do not affect each other in safe mode. Bindings may be
split, reordered or left out, in an object or in a tree at any depth of it: what
the other keys get stays the same, and so does everything around the tree.
-/

namespace Reshape

/-- What surrounds a tree in the object that holds it, and the key of the tree. -/
structure Level (α : Type) where
  before : α
  key : String
  after : α

def Level.bindings (level : Level Configuration) (config : Configuration) : Configuration :=
  level.before ++ (level.key, .tree config) :: level.after

def Level.keys (level : Level Configuration) : List String :=
  level.key :: Entries.keys (level.before ++ level.after)

/-- The bindings of a tree below others, outermost first. -/
def Configuration.nest (levels : List (Level Configuration)) (config : Configuration) :
    Configuration := levels.foldr Level.bindings config

def Level.outcome (level : Level Outcome) (o : Outcome) : Outcome where
  result := .ofList (level.before.result ++ (level.key, .object o.result) :: level.after.result)
  errors := level.before.errors ++ o.errors.map (.underTree level.key) ++ level.after.errors

def Outcome.nest (levels : List (Level Outcome)) (o : Outcome) : Outcome :=
  levels.foldr Level.outcome o

/-- The field of a binding of an object to which target keys lead. -/
def buildField (embedded : List String → MapperId → Except Error Procedure) (mode : Mode)
    (defaults : Defaults) (keys : List String) (entry : String × Binding) : Except Error Field := do
  let plan ← entry.2.build embedded mode defaults (keys ++ [entry.1]) entry.1
  return .mk entry.1 plan (plan.default defaults entry.1)

section Selection

variable {e : List String → MapperId → Except Error Procedure} {mode : Mode} {defaults : Defaults}
  {keys : List String}

/-- Every binding is built on its own. -/
theorem buildBindings_eq_mapM (bindings : List (String × Binding)) :
    buildBindings e mode defaults keys bindings =
      bindings.mapM (buildField e mode defaults keys) := by
  induction bindings with
  | nil => rfl
  | cons entry rest ih =>
    obtain ⟨key, binding⟩ := entry
    simp only [buildBindings, List.mapM_cons, ih, buildField, bind_assoc, pure_bind]

theorem key_of_buildField {entry : String × Binding} {f : Field}
    (h : buildField e mode defaults keys entry = .ok f) : f.key = entry.1 := by
  simp only [buildField, bind_eq_ok_iff, pure_eq_ok_iff] at h
  obtain ⟨plan, _, rfl⟩ := h
  rfl

theorem exists_fields {bindings : List (String × Binding)} {fields : List Field}
    (h : buildBindings e mode defaults keys bindings = .ok fields) :
    ∃ field : String × Binding → Field, bindings.map field = fields ∧
      ∀ part ⊆ bindings, buildBindings e mode defaults keys part = .ok (part.map field) ∧
        (part.map field).map Field.key = Entries.keys part := by
  have hfields : ∀ entry ∈ bindings, ∃ f, buildField e mode defaults keys entry = .ok f := by
    intro entry hentry
    rw [buildBindings_eq_mapM] at h
    have hnone := failure?_eq_none_iff.mpr ⟨fields, h⟩
    rw [failure?_mapM, List.findSome?_eq_none_iff] at hnone
    exact failure?_eq_none_iff.mp (hnone entry hentry)
  have : Nonempty Field := ⟨.mk "" (.tree default) none⟩
  choose! field hfield using hfields
  have hpart : ∀ part ⊆ bindings,
      buildBindings e mode defaults keys part = .ok (part.map field) := by
    intro part hpart
    rw [buildBindings_eq_mapM, mapM_eq_ok_iff, List.forall₂_map_right_iff, List.forall₂_same]
    exact fun entry hentry => hfield entry (hpart hentry)
  refine ⟨field, ?_, fun part hsub => ⟨hpart part hsub, ?_⟩⟩
  · exact Except.ok.inj ((hpart bindings (List.Subset.refl _)).symm.trans h)
  · rw [List.map_map]
    exact List.map_congr_left fun entry hentry => key_of_buildField (hfield entry (hsub hentry))

theorem map_key_of_buildBindings {bindings : List (String × Binding)} {fields : List Field}
    (h : buildBindings e mode defaults keys bindings = .ok fields) :
    fields.map Field.key = Entries.keys bindings := by
  obtain ⟨field, rfl, hparts⟩ := exists_fields h
  exact (hparts bindings (List.Subset.refl _)).2

theorem buildBindings_append_eq_ok_iff {bindings others : List (String × Binding)}
    {fields : List Field} :
    buildBindings e mode defaults keys (bindings ++ others) = .ok fields ↔
      ∃ first, buildBindings e mode defaults keys bindings = .ok first ∧
        ∃ second, buildBindings e mode defaults keys others = .ok second ∧
          first ++ second = fields := by
  simp only [buildBindings_eq_mapM, List.mapM_append, bind_eq_ok_iff, pure_eq_ok_iff]

end Selection

/-- The bindings of an object compile, and a safe run of their fields has an outcome. -/
def Gives (e : List String → MapperId → Except Error Procedure) (source : Value)
    (defaults : Defaults) (keys : List String) (config : Configuration) (o : Outcome) : Prop :=
  ∃ fields, buildBindings e .safe defaults keys config = .ok fields ∧
    Outcome.ofFields source fields = o

section Nesting

variable {e : List String → MapperId → Except Error Procedure} {source : Value}

theorem Level.nodup_keys_outcome {before after : Outcome} {key : String}
    (h : (key :: Entries.keys (before.result ++ after.result)).Nodup) (v : Value) :
    (Entries.keys (before.result ++ (key, v) :: after.result)).Nodup :=
  (List.perm_middle.map Prod.fst).nodup_iff.mpr h

theorem Level.lookup_outcome {before after : Outcome} {key : String}
    (h : (key :: Entries.keys (before.result ++ after.result)).Nodup) (o : Outcome) :
    ((Level.mk before key after).outcome o).result.lookup key = some (.object o.result) := by
  have hkeys := Level.nodup_keys_outcome h (.object o.result)
  rw [outcome, Members.ofList_eq_of_perm hkeys List.perm_middle, Members.lookup_ofList,
    Members.lookup_cons, if_pos rfl]
  exact h

theorem ofFields_tree {before inside after : List Field} {key : String} {default : Option Value}
    (h : (key :: (before ++ after).map Field.key).Nodup) :
    Outcome.ofFields source (before ++ .mk key (.tree (.mk .safe inside)) default :: after) =
      (Level.mk (.ofFields source before) key (.ofFields source after)).outcome
        (.ofFields source inside) := by
  have hmember := Field.member?_tree source key inside default
  have hkeys := Level.nodup_keys_outcome (Outcome.nodup_keys_results source h)
    (.object (Outcome.ofFields source inside).result)
  have hperm := (Outcome.results_perm source (List.nodup_cons.mp h).2).cons
    (key, Value.object (Outcome.ofFields source inside).result)
  rw [Outcome.ofFields, Level.outcome, Outcome.mk.injEq]
  constructor
  · rw [List.filterMap_append] at hperm
    rw [List.filterMap_append, List.filterMap_cons_some hmember]
    exact (Members.ofList_eq_of_perm hkeys
      (List.perm_middle.trans (hperm.trans List.perm_middle.symm))).symm
  · rw [List.flatMap_append, List.flatMap_cons, Field.errors, Field.contribution_tree,
      List.append_assoc]
    rfl

theorem Gives.of_bindings {level : Level Configuration} {config : Configuration} {o : Outcome}
    {defaults : Defaults} {keys : List String} (hlevel : level.keys.Nodup)
    (h : Gives e source defaults keys (level.bindings config) o) :
    ∃ around : Level Outcome, around.key = level.key ∧
      (∀ inner, (around.outcome inner).result.lookup level.key = some (.object inner.result)) ∧
      (∃ inner, Gives e source (defaults.subtree level.key) (keys ++ [level.key]) config inner) ∧
      ∀ part inner, Gives e source (defaults.subtree level.key) (keys ++ [level.key]) part inner →
        Gives e source defaults keys (level.bindings part) (around.outcome inner) := by
  obtain ⟨fields, hfields, rfl⟩ := h
  obtain ⟨before, hbefore, rest, hrest, rfl⟩ := buildBindings_append_eq_ok_iff.mp hfields
  obtain ⟨plan, hplan, after, hafter, rfl⟩ := buildBindings_cons_eq_ok_iff.mp hrest
  obtain ⟨inside, hinside, rfl⟩ := Binding.build_tree_eq_ok_iff.mp hplan
  have hkeys : (level.key :: (before ++ after).map Field.key).Nodup := by
    rw [List.map_append, map_key_of_buildBindings hbefore, map_key_of_buildBindings hafter,
      ← Entries.keys_append]
    exact hlevel
  refine ⟨⟨.ofFields source before, level.key, .ofFields source after⟩, rfl,
    Level.lookup_outcome (Outcome.nodup_keys_results source hkeys), ⟨_, inside, hinside, rfl⟩, ?_⟩
  rintro part _ ⟨others, hothers, rfl⟩
  refine ⟨before ++ .mk level.key (.tree (.mk .safe others)) none :: after, ?_,
    ofFields_tree hkeys⟩
  refine buildBindings_append_eq_ok_iff.mpr ⟨before, hbefore, _, ?_, rfl⟩
  refine buildBindings_cons_eq_ok_iff.mpr ⟨_, ?_, after, hafter, rfl⟩
  exact Binding.build_tree_eq_ok_iff.mpr ⟨others, hothers, rfl⟩

/-- The outcome of a tree has a place in that of the whole, and nothing around it depends on it. -/
structure Surrounds (levels : List (Level Configuration)) (around : List (Level Outcome)) :
    Prop where
  keys : around.map Level.key = levels.map Level.key
  inside : ∀ o : Outcome, (levels.map Level.key).foldlM Defaults.child?
    (.object (o.nest around).result) = some (.object o.result)

/-- Bindings at any depth are run in the same way whatever is around them. -/
theorem Gives.of_nest {levels : List (Level Configuration)} {config : Configuration} {o : Outcome}
    {defaults : Defaults} {keys : List String} (hlevels : ∀ level ∈ levels, level.keys.Nodup)
    (h : Gives e source defaults keys (config.nest levels) o) :
    ∃ around : List (Level Outcome), Surrounds levels around ∧ ∃ place below,
      (∃ inner, Gives e source below place config inner) ∧
      ∀ part inner, Gives e source below place part inner →
        Gives e source defaults keys (part.nest levels) (inner.nest around) := by
  induction levels generalizing defaults keys o with
  | nil => exact ⟨[], ⟨rfl, fun _ => rfl⟩, keys, defaults, ⟨o, h⟩, fun _ _ h => h⟩
  | cons level levels ih =>
    rw [List.forall_mem_cons] at hlevels
    obtain ⟨outer, houter, hlookup, ⟨middle, hmiddle⟩, houtcome⟩ := Gives.of_bindings hlevels.1 h
    obtain ⟨around, haround, place, below, hinner, hnest⟩ := ih hlevels.2 hmiddle
    refine ⟨outer :: around, ⟨?_, fun o => ?_⟩, place, below, hinner, fun part inner hpart => ?_⟩
    · rw [List.map_cons, List.map_cons, houter, haround.keys]
    · rw [List.map_cons, List.foldlM_cons, ← haround.inside o]
      exact congrArg (· >>= _) (hlookup (o.nest around))
    · exact houtcome _ _ (hnest part inner hpart)

end Nesting

section Within

variable {n : Nat}

theorem forall_embeddedIn_append {P : MapperId → Prop} {bindings others : List (String × Binding)} :
    (∀ j ∈ embeddedIn (bindings ++ others), P j) ↔
      (∀ j ∈ embeddedIn bindings, P j) ∧ ∀ j ∈ embeddedIn others, P j := by
  induction bindings with
  | nil => simp [embeddedIn]
  | cons entry rest ih =>
    rw [List.cons_append, forall_embeddedIn_cons, ih, forall_embeddedIn_cons, and_assoc]

theorem Level.bindings_within_iff {level : Level Configuration} {config : Configuration} :
    (level.bindings config).Within n ↔
      level.before.Within n ∧ config.Within n ∧ level.after.Within n :=
  forall_embeddedIn_append.trans (and_congr_right' forall_embeddedIn_cons)

theorem Configuration.within_iff {config : Configuration} :
    config.Within n ↔ ∀ entry ∈ config, ∀ j ∈ entry.2.embedded, j < n := by
  induction config with
  | nil => simp [Within, embedded, embeddedIn]
  | cons entry rest ih =>
    rw [List.forall_mem_cons, ← ih]
    exact forall_embeddedIn_cons

theorem Configuration.nest_within {levels : List (Level Configuration)}
    {config part : Configuration} (hsub : part ⊆ config) (h : (config.nest levels).Within n) :
    (part.nest levels).Within n := by
  induction levels with
  | nil =>
    rw [Configuration.nest, List.foldr_nil, within_iff] at h ⊢
    exact fun entry hentry => h entry (hsub hentry)
  | cons level levels ih =>
    obtain ⟨hbefore, hinside, hafter⟩ := Level.bindings_within_iff.mp h
    exact Level.bindings_within_iff.mpr ⟨hbefore, ih hinside, hafter⟩

end Within

namespace Store

variable {s : Store} {config : Configuration} {defaults : Defaults} {source : Value} {o : Outcome}
  {p : Procedure}

/-- A configuration compiles in safe mode, and its run on a source has an outcome. -/
def Yields (s : Store) (config : Configuration) (defaults : Defaults) (source : Value)
    (o : Outcome) : Prop :=
  ∃ p, (s.compileConfiguration config defaults .safe).1 = .ok p ∧ p.run source = .ok o

theorem Coherent.yields_iff_gives (hs : s.Coherent) (hconfig : config.Within s.size) :
    s.Yields config defaults source o ↔ Gives (s.build []) source defaults [] config o := by
  rw [Yields, hs.compileConfiguration_eq_build hconfig]
  constructor
  · rintro ⟨p, hp, hrun⟩
    obtain ⟨fields, hfields, rfl⟩ := Configuration.build_eq_ok_iff.mp hp
    rw [Procedure.run_safe] at hrun
    exact ⟨fields, hfields, Except.ok.inj hrun⟩
  · rintro ⟨fields, hfields, rfl⟩
    exact ⟨.mk .safe fields, Configuration.build_eq_ok_iff.mpr ⟨fields, hfields, rfl⟩,
      Procedure.run_safe fields source⟩

theorem Coherent.selections (hs : s.Coherent) {levels : List (Level Configuration)}
    (hwithin : (config.nest levels).Within s.size)
    (hlevels : ∀ level ∈ levels, level.keys.Nodup)
    (hp : (s.compileConfiguration (config.nest levels) defaults .safe).1 = .ok p)
    (source : Value) :
    ∃ (around : List (Level Outcome)) (field : String × Binding → Field),
      Surrounds levels around ∧ ∀ part : Configuration, part ⊆ config →
        (part.map field).map Field.key = Entries.keys part ∧
        s.Yields (part.nest levels) defaults source
          (.nest around (.ofFields source (part.map field))) := by
  obtain ⟨all, hall, _⟩ := hs.fields_of_compileConfiguration hwithin hp
  obtain ⟨around, haround, place, below, ⟨_, fields, hfields, _⟩, hnest⟩ :=
    Gives.of_nest hlevels ⟨all, hall, rfl⟩
  obtain ⟨field, _, hparts⟩ := exists_fields hfields
  refine ⟨around, field, haround, fun part hsub => ⟨(hparts part hsub).2, ?_⟩⟩
  rw [hs.yields_iff_gives (Configuration.nest_within hsub hwithin)]
  exact hnest part _ ⟨_, (hparts part hsub).1, rfl⟩

/--
The fields of a safe object do not affect each other, nor what is around a tree
that they are in. Bindings that follow each other give the union of what they
give alone. Another order of the bindings changes only that of their errors, and
to leave one out, or to put one in, makes no difference to the other keys.
-/
theorem safe_fields_isolated (hs : s.Reachable) {levels : List (Level Configuration)}
    (hwithin : (config.nest levels).Within s.size)
    (hlevels : ∀ level ∈ levels, level.keys.Nodup) (hkeys : (Entries.keys config).Nodup)
    (hp : (s.compileConfiguration (config.nest levels) defaults .safe).1 = .ok p)
    (source : Value) :
    ∃ (around : List (Level Outcome)) (o : Outcome),
      Surrounds levels around ∧ p.run source = .ok (o.nest around) ∧
      (∀ first second, first ++ second = config → ∃ o₁ o₂,
        s.Yields (.nest levels first) defaults source (.nest around o₁) ∧
        s.Yields (.nest levels second) defaults source (.nest around o₂) ∧ o₁.Joins o₂ o) ∧
      ∃ group : String × Binding → List FieldError, o.errors = config.flatMap group ∧
        (∀ entry ∈ config, (∀ error ∈ group entry, error.At entry.1) ∧ ∃ alone : Outcome,
          s.Yields (.nest levels [entry]) defaults source (.nest around alone) ∧
          alone.errors = group entry) ∧
        (∀ other : Configuration, other.Perm config →
          s.Yields (.nest levels other) defaults source
            (.nest around ⟨o.result, other.flatMap group⟩)) ∧
        ∀ before entry after, before ++ entry :: after = config → ∃ rest : Outcome,
          s.Yields (.nest levels (before ++ after)) defaults source (.nest around rest) ∧
          rest.errors = (before ++ after).flatMap group ∧
          ∀ key, rest.result.lookup key =
            if key = entry.1 then none else o.result.lookup key := by
  obtain ⟨around, field, haround, hparts⟩ :=
    hs.coherent.selections hwithin hlevels hp source
  obtain ⟨hfields, q, hq, hrun⟩ := hparts config (List.Subset.refl config)
  obtain rfl := Except.ok.inj (hp.symm.trans hq)
  have hnodup : ((config.map field).map Field.key).Nodup := hfields ▸ hkeys
  have hkey : ∀ entry ∈ config, (field entry).key = entry.1 := fun entry hentry =>
    List.map_inj_left.mp ((List.map_map (g := Field.key)).symm.trans hfields) entry hentry
  have herrors : ∀ part : Configuration, (Outcome.ofFields source (part.map field)).errors =
      part.flatMap fun entry => (field entry).errors source :=
    fun part => List.flatMap_map field (Field.errors source) part
  refine ⟨around, _, haround, hrun, ?_, _, herrors config, ?_, ?_, ?_⟩
  · rintro first second rfl
    have hfirst := hparts first (List.subset_append_left first second)
    have hsecond := hparts second (List.subset_append_right first second)
    rw [List.map_append] at hnodup ⊢
    exact ⟨_, _, hfirst.2, hsecond.2, Outcome.joins_ofFields hnodup⟩
  · intro entry hentry
    have halone := hparts [entry] (by simpa using hentry)
    refine ⟨hkey entry hentry ▸ (field entry).errors_at, _, halone.2, ?_⟩
    rw [herrors, List.flatMap_singleton]
  · intro other hperm
    rw [Outcome.result_ofFields_perm hnodup (hperm.symm.map field), ← herrors other]
    exact (hparts other hperm.subset).2
  · rintro before entry after rfl
    have hsub : (before ++ after).Sublist (before ++ entry :: after) :=
      (List.sublist_cons_self entry after).append_left before
    refine ⟨_, (hparts _ hsub.subset).2, herrors _, fun key => ?_⟩
    rw [← hkey entry (by simp), List.map_append, List.map_append, List.map_cons]
    rw [List.map_append, List.map_cons] at hnodup
    exact Outcome.lookup_result_ofFields hnodup key

def kindOnly : Configuration := [("kind", .path "kind" .nested)]

def boxAndKind : Configuration := ("box", .mapper 0 (some "box")) :: kindOnly

def afterName : Level Configuration := ⟨[("name", .path "name" .nested)], "part", []⟩

def kindDefaults : Defaults := ⟨[("part", .object [("kind", .string "crate")])]⟩

theorem safe_fields_isolated_listedBox :
    ∃ p around o rest,
      (boxing.compileConfiguration (.nest [afterName] boxAndKind) kindDefaults .safe).1 = .ok p ∧
      p.run listedBox = .ok (.nest around o) ∧
      (Outcome.nest around o).errors.map FieldError.field = ["part.box.size"] ∧
      boxing.Yields (.nest [afterName] kindOnly) kindDefaults listedBox (.nest around rest) ∧
      (Outcome.nest around rest).errors = [] ∧
      rest.result.lookup "kind" = o.result.lookup "kind" := by
  obtain ⟨p, hp⟩ : ∃ p,
      (boxing.compileConfiguration (.nest [afterName] boxAndKind) kindDefaults .safe).1 = .ok p :=
    failure?_eq_none_iff.mp (by decide +kernel)
  obtain ⟨around, o, _, hrun, _, group, _, _, _, hwithout⟩ :=
    safe_fields_isolated reachable_boxing (by decide) (by decide) (by decide) hp listedBox
  obtain ⟨rest, ⟨q, hq, hrest⟩, _, hlookup⟩ := hwithout [] _ _ rfl
  refine ⟨p, around, o, rest, hp, hrun, ?_, ⟨q, hq, hrest⟩, ?_, hlookup "kind"⟩
  · have hfields : ((boxing.compileConfiguration (.nest [afterName] boxAndKind) kindDefaults
        .safe).1.bind (·.run listedBox)).map (·.errors.map FieldError.field) =
          .ok ["part.box.size"] := by
      decide +kernel
    rw [hp] at hfields
    simpa only [Except.bind, hrun, Except.map, Except.ok.injEq] using hfields
  · have hq : (boxing.compileConfiguration (.nest [afterName] kindOnly) kindDefaults .safe).1 =
        .ok q := hq
    have herrors : ((boxing.compileConfiguration (.nest [afterName] kindOnly) kindDefaults
        .safe).1.bind (·.run listedBox)).map Outcome.errors = .ok [] := by
      decide +kernel
    rw [hq] at herrors
    simpa only [Except.bind, hrest, Except.map, Except.ok.injEq] using herrors

end Store

end Reshape
