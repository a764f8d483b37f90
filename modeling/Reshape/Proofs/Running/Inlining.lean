import Reshape.Proofs.Composition.Visits
import Reshape.Proofs.Running.Standalone

/-! # Embedded mappers as inline trees

A mapper that is embedded on the whole source, in the mode of its parent, can be
written out as an inline tree that has its defaults. What the parent gives is the
same; only the errors from inside the tree say that they are.
-/

namespace Reshape

/-- Two runs succeed with the same outcome, or fail with the same text. -/
inductive Alike : Except Error Outcome → Except Error Outcome → Prop where
  | succeed (o : Outcome) : Alike (.ok o) (.ok o)
  | fail {e e' : Error} (h : e'.message = e.message) : Alike (.error e) (.error e')

theorem Alike.refl (x : Except Error Outcome) : Alike x x := by
  cases x with
  | ok o => exact .succeed o
  | error e => exact .fail rfl

theorem Alike.bind {x y : Except Error Outcome} {f g : Outcome → Except Error Outcome}
    (h : Alike x y) (hfg : ∀ o, Alike (f o) (g o)) : Alike (x >>= f) (y >>= g) := by
  cases h with
  | succeed o => exact hfg o
  | fail h => exact .fail h

/-- Fields inside a mapper or a tree, and those around it. -/
structure Parts where
  first : List Field
  inside : List Field
  last : List Field

namespace Parts

def child (mode : Mode) (parts : Parts) : Procedure := .mk mode parts.inside

def embedding (mode : Mode) (key : String) (default : Option Value) (parts : Parts) : Procedure :=
  .mk mode (parts.first ++ .mk key (.mapper (parts.child mode) none) default :: parts.last)

def inlined (mode : Mode) (key : String) (parts : Parts) : Procedure :=
  .mk mode (parts.first ++ .mk key (.tree (parts.child mode)) none :: parts.last)

end Parts

section Build

variable {e : List String → MapperId → Except Error Procedure} {mode : Mode}
  {defaults others : Defaults} {keys : List String} {key : String}
  {before after config : Configuration}

theorem Defaults.subtree_congr (h : others.get? key = defaults.get? key) :
    others.subtree key = defaults.subtree key := by
  rw [subtree, subtree, h]

theorem buildField_defaults_congr {entry : String × Binding}
    (h : others.get? entry.1 = defaults.get? entry.1) :
    buildField e mode others keys entry = buildField e mode defaults keys entry := by
  obtain ⟨key, binding⟩ := entry
  have hdefault : ∀ plan : Plan, plan.default others key = plan.default defaults key := by
    intro plan
    cases plan <;> first | rfl | exact h
  have hplan : binding.build e mode others (keys ++ [key]) key =
      binding.build e mode defaults (keys ++ [key]) key := by
    cases binding with
    | tree bindings => rw [Binding.build, Binding.build, Defaults.subtree_congr h]
    | _ => rfl
  simp only [buildField, hplan, hdefault]

theorem buildBindings_defaults_congr {bindings : List (String × Binding)}
    (h : ∀ key ∈ Entries.keys bindings, others.get? key = defaults.get? key) :
    buildBindings e mode others keys bindings = buildBindings e mode defaults keys bindings := by
  rw [buildBindings_eq_mapM, buildBindings_eq_mapM]
  induction bindings with
  | nil => rfl
  | cons entry rest ih =>
    rw [Entries.keys, List.map_cons, List.forall_mem_cons] at h
    rw [List.mapM_cons, List.mapM_cons, buildField_defaults_congr h.1, ih h.2]

theorem buildBindings_middle (binding : Binding) :
    buildBindings e mode defaults keys (before ++ (key, binding) :: after) = (do
      let first ← buildBindings e mode defaults keys before
      let plan ← binding.build e mode defaults (keys ++ [key]) key
      let last ← buildBindings e mode defaults keys after
      return first ++ .mk key plan (plan.default defaults key) :: last) := by
  simp only [buildBindings_eq_mapM, List.mapM_append, List.mapM_cons, buildField, bind_assoc,
    pure_bind]

/--
The procedures of a parent that embeds a mapper, and of one that has the bindings
of the mapper as a tree, have their parts in common.
-/
theorem build_inlined {j : MapperId}
    (hchild : e [key] j = config.build e mode (others.subtree key) [key])
    (haround : ∀ other ∈ Entries.keys (before ++ after), others.get? other = defaults.get? other) :
    ∃ built : Except Error Parts,
      Configuration.build e mode defaults [] (before ++ (key, .mapper j none) :: after) =
        Parts.embedding mode key (defaults.get? key) <$> built ∧
      Configuration.build e mode others [] (before ++ (key, .tree config) :: after) =
        Parts.inlined mode key <$> built ∧
      ∀ parts, built = .ok parts → e [key] j = .ok (parts.child mode) := by
  rw [Entries.keys_append, List.forall_mem_append] at haround
  refine ⟨do
    let first ← buildBindings e mode defaults [] before
    let inside ← buildBindings e mode (others.subtree key) [key] config
    let last ← buildBindings e mode defaults [] after
    return ⟨first, inside, last⟩, ?_, ?_, fun parts hparts => ?_⟩
  · simp only [Configuration.build, buildBindings_middle, Binding.build, readSource, ok_bind,
      List.nil_append, hchild]
    rcases buildBindings e mode defaults [] before with fault | first
    · rfl
    rcases buildBindings e mode (others.subtree key) [key] config with fault | inside
    · rfl
    rcases buildBindings e mode defaults [] after with fault | last <;> rfl
  · simp only [Configuration.build, buildBindings_middle, Binding.build, List.nil_append,
      buildBindings_defaults_congr haround.1, buildBindings_defaults_congr haround.2]
    rcases buildBindings e mode defaults [] before with fault | first
    · rfl
    rcases buildBindings e mode (others.subtree key) [key] config with fault | inside
    · rfl
    rcases buildBindings e mode defaults [] after with fault | last <;> rfl
  · simp only [bind_eq_ok_iff, pure_eq_ok_iff] at hparts
    obtain ⟨first, _, inside, hinside, last, _, rfl⟩ := hparts
    rw [hchild, Configuration.build, hinside]
    rfl

end Build

section Run

variable {mode : Mode} {source : Value} {key : String} {default : Option Value}

theorem Plan.contribution_mapper (p : Procedure) (hsource : source.isNull = false) :
    (Plan.mapper p none).contribution mode source key = embed mode key (p.evaluate source) := by
  have hselected : embeddedSource none source = .ok (some source) := by
    simp [embeddedSource, Option.filter, hsource]
  rw [contribution, hselected]

theorem Field.contribution_mapper {inside : List Field} (hsource : source.isNull = false) :
    (Field.mk key (.mapper (.mk .safe inside) none) default).contribution source =
      ⟨some (.object (Outcome.ofFields source inside).result),
        (Outcome.ofFields source inside).errors.map (.under key)⟩ := by
  rw [contribution, Plan.contribution_mapper _ hsource, Procedure.evaluate_safe]
  rfl

/-- In safe mode the errors from inside are the only difference. -/
theorem Parts.run_safe (parts : Parts) (hsource : source.isNull = false) :
    ∃ outer flat inner first last,
      (parts.embedding .safe key default).run source = .ok outer ∧
      (parts.inlined .safe key).run source = .ok flat ∧
      (parts.child .safe).run source = .ok inner ∧ flat.result = outer.result ∧
      outer.errors = first ++ inner.errors.map (.under key) ++ last ∧
      flat.errors = first ++ inner.errors.map (.underTree key) ++ last := by
  have hmapper : (Field.mk key (.mapper (parts.child .safe) none) default).contribution source =
      _ := Field.contribution_mapper hsource
  have htree : (Field.mk key (.tree (parts.child .safe)) none).contribution source = _ :=
    Field.contribution_tree source key parts.inside none
  refine ⟨_, _, _, (Outcome.ofFields source parts.first).errors,
    (Outcome.ofFields source parts.last).errors, Procedure.run_safe _ _, Procedure.run_safe _ _,
    Procedure.run_safe _ _, ?_, ?_, ?_⟩
  · simp only [Outcome.ofFields, List.filterMap_append, List.filterMap_cons, Field.member?,
      hmapper, htree, Field.key]
  · simp only [Outcome.ofFields, List.flatMap_append, List.flatMap_cons, Field.errors, hmapper,
      List.append_assoc]
  · simp only [Outcome.ofFields, List.flatMap_append, List.flatMap_cons, Field.errors, htree,
      List.append_assoc]

/-- In fail-fast mode only the fault may be another one, with the same text. -/
theorem Parts.run_failFast (parts : Parts) (hsource : source.isNull = false)
    (hfast : (parts.child .failFast).Uniform) :
    Alike ((parts.embedding .failFast key default).run source)
      ((parts.inlined .failFast key).run source) := by
  rw [embedding, inlined, run_mk, run_mk, runFields_append, runFields_append]
  refine (Alike.refl _).bind fun o => ?_
  rw [runFields_cons, runFields_cons]
  refine Alike.bind ?_ fun o => .refl _
  rw [Field.step, Field.step, Plan.contribution_mapper _ hsource, Plan.contribution]
  cases hrun : (parts.child .failFast).evaluate source with
  | error fault =>
    -- The mapper ends the run with the text of the fault, the tree with the fault itself.
    have hsame : (Error.mapping fault).message = (Error.mapping (.nested fault.message)).message :=
      rfl
    exact .fail hsame
  | ok inner =>
    have hnil : inner.errors = [] := Procedure.errors_of_failFast _ rfl hfast hrun
    obtain ⟨result, errors⟩ := inner
    obtain rfl : errors = [] := hnil
    exact .refl _

end Run

theorem embeddedIn_middle {before after : List (String × Binding)} {key : String}
    {binding : Binding} {j : MapperId} :
    j ∈ embeddedIn (before ++ (key, binding) :: after) ↔
      (j ∈ embeddedIn before ∨ j ∈ embeddedIn after) ∨ j ∈ binding.embedded := by
  induction before with
  | nil => simp [embeddedIn, or_comm]
  | cons entry rest ih =>
    rw [List.cons_append, embeddedIn, embeddedIn, List.mem_append, List.mem_append, ih]
    tauto

namespace Store

variable {s : Store} {stack stack' : List MapperId} {keys : List String} {id : MapperId}

theorem build_eq_of_reached (h : ∀ j, s.Reaches id j → (j ∈ stack ↔ j ∈ stack')) :
    s.build stack keys id = s.build stack' keys id := by
  induction stack, id using s.entering_induction generalizing stack' keys with
  | entered stack id hmem => rw [build_of_mem hmem, build_of_mem ((h id .refl).mp hmem)]
  | enter stack id hmem ih =>
    rw [build_of_not_mem hmem, build_of_not_mem fun hin => hmem ((h id .refl).mpr hin)]
    refine congrArg (Procedure.mk _ <$> ·) (buildBindings_congr _ _ _ fun j hj keys => ?_)
    refine ih j hj fun k hk => ?_
    rw [List.mem_cons, List.mem_cons, h k (.head hj hk)]

theorem build_of_acyclic (h : ¬ Relation.TransGen s.Embeds id id) :
    s.build [] keys id =
      (s.mapper id).config.build (s.build []) (s.mapper id).mode (s.mapper id).defaults keys := by
  rw [build_of_not_mem List.not_mem_nil]
  refine congrArg (Procedure.mk _ <$> ·) (buildBindings_congr _ _ _ fun j hj keys => ?_)
  refine build_eq_of_reached fun k hk => ?_
  have hne : k ≠ id := fun heq => h (.head' hj (heq ▸ hk))
  simp [hne]

/--
One mapper embeds another, on the whole source and in its own mode, where a third
one has the bindings of that as a tree. The rest of the two is the same.
-/
structure Inlines (s : Store) (i j n : MapperId) (before : Configuration) (key : String)
    (after : Configuration) : Prop where
  parent : (s.mapper i).config = before ++ (key, .mapper j none) :: after
  inlined : (s.mapper n).config = before ++ (key, .tree (s.mapper j).config) :: after
  childMode : (s.mapper j).mode = (s.mapper i).mode
  mode : (s.mapper n).mode = (s.mapper i).mode
  default : (s.mapper n).defaults.get? key = some (s.mapper j).defaults.toValue
  defaults : ∀ other ∈ Entries.keys (before ++ after),
    (s.mapper n).defaults.get? other = (s.mapper i).defaults.get? other

namespace Inlines

variable {i j n : MapperId} {before after : Configuration} {key : String} {mode : Mode}

theorem embeds_parent (h : s.Inlines i j n before key after) {k : MapperId} :
    s.Embeds i k ↔ (k ∈ embeddedIn before ∨ k ∈ embeddedIn after) ∨ k = j := by
  rw [Embeds, h.parent, Configuration.embedded, embeddedIn_middle, Binding.embedded,
    List.mem_singleton]

theorem embeds_inlined (h : s.Inlines i j n before key after) {k : MapperId} :
    s.Embeds n k ↔ (k ∈ embeddedIn before ∨ k ∈ embeddedIn after) ∨ s.Embeds j k := by
  rw [Embeds, h.inlined, Configuration.embedded, embeddedIn_middle, Binding.embedded]
  rfl

/-- None of the three mappers is embedded in itself. -/
def Acyclic (s : Store) (i j n : MapperId) : Prop :=
  ∀ k ∈ [i, j, n], ¬ Relation.TransGen s.Embeds k k

theorem acyclic_of_parent (h : s.Inlines i j n before key after) (hi : s.Sound [] i) :
    Acyclic s i j n := by
  have hij : s.Embeds i j := h.embeds_parent.mpr (.inr rfl)
  have hn : ¬ Relation.TransGen s.Embeds n n := by
    intro hcycle
    obtain ⟨k, hk, hback⟩ := Relation.TransGen.head'_iff.mp hcycle
    refine (hi n ?_).2.2 hcycle
    rcases h.embeds_inlined.mp hk with haround | hjk
    · exact .head (h.embeds_parent.mpr (.inl haround)) hback
    · exact .head hij (.head hjk hback)
  simpa [Acyclic] using ⟨(hi i .refl).2.2, (hi j (.single hij)).2.2, hn⟩

theorem acyclic_of_inlined (h : s.Inlines i j n before key after) (hn : s.Sound [] n) :
    Acyclic s i j n := by
  have hj : ¬ Relation.TransGen s.Embeds j j := by
    intro hcycle
    obtain ⟨k, hk, hback⟩ := Relation.TransGen.head'_iff.mp hcycle
    exact (hn j (.head (h.embeds_inlined.mpr (.inr hk)) hback)).2.2 hcycle
  have hi : ¬ Relation.TransGen s.Embeds i i := by
    intro hcycle
    obtain ⟨k, hk, hback⟩ := Relation.TransGen.head'_iff.mp hcycle
    rcases h.embeds_parent.mp hk with haround | rfl
    · exact (hn i (.head (h.embeds_inlined.mpr (.inl haround)) hback)).2.2 hcycle
    · exact hj (.tail' hback hk)
  simpa [Acyclic] using ⟨hi, hj, (hn n .refl).2.2⟩

theorem build_eq (h : s.Inlines i j n before key after) (hmode : (s.mapper i).mode = mode)
    (hacyclic : Acyclic s i j n) :
    ∃ built : Except Error Parts,
      s.build [] [] i =
        Parts.embedding mode key ((s.mapper i).defaults.get? key) <$> built ∧
      s.build [] [] n = Parts.inlined mode key <$> built ∧
      ∀ parts, built = .ok parts → s.build [] [] j = .ok (parts.child mode) := by
  have hbuild : ∀ k ∈ [i, j, n], ∀ keys, s.build [] keys k =
      (s.mapper k).config.build (s.build []) mode (s.mapper k).defaults keys := by
    intro k hk keys
    rw [build_of_acyclic (hacyclic k hk)]
    have hk : (s.mapper k).mode = mode := by
      simp only [List.mem_cons, List.not_mem_nil, or_false] at hk
      rcases hk with rfl | rfl | rfl
      · exact hmode
      · exact h.childMode.trans hmode
      · exact h.mode.trans hmode
    rw [hk]
  have hsubtree : (s.mapper n).defaults.subtree key = (s.mapper j).defaults := by
    rw [Defaults.subtree, h.default]
    rfl
  have hchild := hbuild j (by simp) [key]
  rw [← hsubtree] at hchild
  obtain ⟨built, hparent, hinlined, hinside⟩ := build_inlined hchild h.defaults
  refine ⟨built, ?_, ?_, fun parts hparts => ?_⟩
  · rw [hbuild i (by simp), h.parent, hparent]
  · rw [hbuild n (by simp), h.inlined, hinlined]
  · exact build_eq_ok_of_subset (List.Subset.refl []) (hinside parts hparts)

theorem failure?_build_eq (h : s.Inlines i j n before key after) (hacyclic : Acyclic s i j n) :
    failure? (s.build [] [] n) = failure? (s.build [] [] i) := by
  obtain ⟨built, hparent, hinlined, _⟩ := h.build_eq rfl hacyclic
  rw [hparent, hinlined]
  cases built <;> rfl

end Inlines

/--
A mapper that is embedded on the whole source in the mode of its parent can be
written out as a tree. Both ways compile or fail to, with the same error unless
there is a cycle. Where they run on a source that is not null, the results are
the same; in safe mode the errors differ in the scope of those from inside, and
in fail-fast mode the run may end with another fault that has the same text.
-/
theorem inlining_preserves_meaning (hs : s.Reachable) {i j n : MapperId} (hi : i < s.size)
    (hn : n < s.size) {before after : Configuration} {key : String}
    (h : s.Inlines i j n before key after) :
    ((∃ p, (s.compile i).1 = .ok p) ↔ ∃ p, (s.compile n).1 = .ok p) ∧
    (Inlines.Acyclic s i j n → failure? (s.compile n).1 = failure? (s.compile i).1) ∧
    ∀ p, (s.compile i).1 = .ok p → ∀ source : Value, source.isNull = false →
      ((s.mapper i).mode = .safe → ∃ outer flat inner first last,
        (s.execute i source).1 = .ok outer ∧ (s.execute n source).1 = .ok flat ∧
        (s.execute j source).1 = .ok inner ∧ flat.result = outer.result ∧
        outer.errors = first ++ inner.errors.map (.under key) ++ last ∧
        flat.errors = first ++ inner.errors.map (.underTree key) ++ last) ∧
      ((s.mapper i).mode = .failFast →
        Alike (s.execute i source).1 (s.execute n source).1) := by
  have hj : j < s.size := hs.coherent.closed i j (h.embeds_parent.mpr (.inr rfl))
  rw [hs.coherent.compile_eq_build hi, hs.coherent.compile_eq_build hn]
  -- Where one of the two compiles, there is no cycle, and so the other does as well.
  refine ⟨⟨fun hok => ?_, fun hok => ?_⟩, h.failure?_build_eq, fun p hp source hsource => ?_⟩
  · have hsame := h.failure?_build_eq (h.acyclic_of_parent (build_eq_ok_iff.mp hok))
    rwa [← failure?_eq_none_iff, hsame, failure?_eq_none_iff]
  · have hsame := h.failure?_build_eq (h.acyclic_of_inlined (build_eq_ok_iff.mp hok))
    rwa [← failure?_eq_none_iff, ← hsame, failure?_eq_none_iff]
  · have hsound := build_eq_ok_iff.mp ⟨p, hp⟩
    obtain ⟨built, hparent, hinlined, hinside⟩ := h.build_eq rfl (h.acyclic_of_parent hsound)
    obtain ⟨parts, rfl, rfl⟩ := map_eq_ok_iff.mp (hparent.symm.trans hp)
    have hchild := hinside parts rfl
    have hfast := build_uniform hchild
    rw [hs.coherent.execute_of_build hi hparent, hs.coherent.execute_of_build hn hinlined,
      hs.coherent.execute_of_build hj hchild]
    refine ⟨fun hmode => ?_, fun hmode => ?_⟩
    · rw [hmode]
      exact parts.run_safe hsource
    · rw [hmode] at hfast ⊢
      exact parts.run_failFast hsource hfast

/-- A member with a default, and one that cannot be found. -/
def unsized : Configuration :=
  [("kind", .path "kind" .nested), ("size", .transform fun _ => .error (.transform "no size"))]

def crateDefaults : Defaults := ⟨[("kind", .string "crate")]⟩

/-- The bindings as a mapper, then a mapper that embeds it, and one that has them as a tree. -/
def bothWays (mode : Mode) : Store :=
  ((Store.empty.after (.create unsized crateDefaults mode)).after
    (.create [("name", .path "name" .nested), ("box", .mapper 0 none)] .empty mode)).after
      (.create [("name", .path "name" .nested), ("box", .tree unsized)]
        ⟨[("box", crateDefaults.toValue)]⟩ mode)

theorem reachable_bothWays (mode : Mode) : (bothWays mode).Reachable :=
  .step (.step (.step .empty (by cases mode <;> decide)) (by cases mode <;> decide))
    (by cases mode <;> decide)

theorem inlines_bothWays (mode : Mode) :
    (bothWays mode).Inlines 1 0 2 [("name", .path "name" .nested)] "box" [] := by
  refine ⟨rfl, rfl, rfl, rfl, rfl, fun other hother => ?_⟩
  rw [List.mem_singleton.mp hother]
  rfl

/-- The error in the box has another scope, or another fault with the same text. -/
theorem inlining_preserves_meaning_unsized :
    let safe := bothWays .safe
    let failFast := bothWays .failFast
    (∃ outer flat, (safe.execute 1 (.object [])).1 = .ok outer ∧
      (safe.execute 2 (.object [])).1 = .ok flat ∧ flat.result = outer.result ∧
      outer.errors = [⟨.field, "box.size", .transform "no size"⟩] ∧
      flat.errors = [⟨.nestedField, "box.size", .transform "no size"⟩]) ∧
    Alike (failFast.execute 1 (.object [])).1 (failFast.execute 2 (.object [])).1 ∧
    (failFast.execute 1 (.object [])).1 = .error (.mapping (.nested "no size")) ∧
    (failFast.execute 2 (.object [])).1 = .error (.mapping (.transform "no size")) := by
  have hcompiles : ∀ mode, ∃ p, ((bothWays mode).compile 1).1 = .ok p := by
    intro mode
    refine failure?_eq_none_iff.mp ?_
    cases mode <;> decide +kernel
  have hsize : ∀ mode, 2 < (bothWays mode).size := by
    intro mode
    cases mode <;> decide
  have hruns := fun mode => (inlining_preserves_meaning (reachable_bothWays mode)
    (Nat.lt_of_succ_lt (hsize mode)) (hsize mode) (inlines_bothWays mode)).2.2
  refine ⟨?_, ?_, ?_, ?_⟩
  · obtain ⟨p, hp⟩ := hcompiles .safe
    obtain ⟨outer, flat, _, _, _, houter, hflat, _, hresult, _, _⟩ :=
      (hruns .safe p hp (.object []) rfl).1 rfl
    have herrors : ((bothWays .safe).execute 1 (.object [])).1.map Outcome.errors =
        .ok [⟨.field, "box.size", .transform "no size"⟩] := by
      decide +kernel
    have herrors' : ((bothWays .safe).execute 2 (.object [])).1.map Outcome.errors =
        .ok [⟨.nestedField, "box.size", .transform "no size"⟩] := by
      decide +kernel
    rw [houter] at herrors
    rw [hflat] at herrors'
    exact ⟨outer, flat, houter, hflat, hresult, Except.ok.inj herrors, Except.ok.inj herrors'⟩
  · obtain ⟨p, hp⟩ := hcompiles .failFast
    exact (hruns .failFast p hp (.object []) rfl).2 rfl
  · exact failure?_eq_some_iff.mp (by decide +kernel)
  · exact failure?_eq_some_iff.mp (by decide +kernel)

end Store

end Reshape
