import Reshape.Proofs.Composition.Visits
import Reshape.Proofs.Filling
import Reshape.Proofs.Running.Interpreter
import Reshape.Proofs.Running.Standalone

/-! # Defaults fill gaps

A run with defaults does what a run without them does, and then puts a default
at each key for which there is nothing in the source. It changes nothing else.
-/

namespace Reshape

/--
What a binding finds for its key in a source. A mapper is there if it is given a
value, and an inline tree always is.
-/
def Binding.found? (source : Value) : Binding → Option (Except MappingFault (Option Value))
  | .path text shape => (readable? text).map fun path => path.resolveAs shape source
  | .transform f => some (f source)
  | .mapper _ text? => selected? text? source
  | .tree _ => none

mutual

/-- The keys from a binding to those bindings that find nothing without failing, through trees. -/
def Binding.gaps (source : Value) : Binding → List (List String)
  | .tree bindings => gapsIn source bindings
  | binding =>
    match binding.found? source with
    | some (.ok none) => [[]]
    | _ => []

def gapsIn (source : Value) : List (String × Binding) → List (List String)
  | [] => []
  | (key, binding) :: rest => (binding.gaps source).map (key :: ·) ++ gapsIn source rest

end

/-- The keys from the root to the bindings that find nothing. -/
def Configuration.gaps (source : Value) (config : Configuration) : List (List String) :=
  gapsIn source config

mutual

/-- No key is bound twice in an object, also inside a binding. -/
def Binding.Distinct : Binding → Prop
  | .tree bindings => DistinctIn bindings
  | _ => True

def DistinctIn : List (String × Binding) → Prop
  | [] => True
  | (key, binding) :: rest => key ∉ Entries.keys rest ∧ binding.Distinct ∧ DistinctIn rest

end

def Configuration.Distinct (config : Configuration) : Prop := DistinctIn config

def Outcome.fill (defaults : Defaults) (gaps : List (List String)) (o : Outcome) : Outcome :=
  { o with result := o.result.fill defaults gaps }

section Gaps

variable {source : Value} {gap : List String}

theorem exists_key_of_mem_gapsIn {bindings : List (String × Binding)}
    (h : gap ∈ gapsIn source bindings) :
    ∃ key ∈ Entries.keys bindings, ∃ keys, gap = key :: keys := by
  induction bindings with
  | nil => cases h
  | cons entry rest ih =>
    obtain ⟨key, binding⟩ := entry
    rw [gapsIn, List.mem_append, List.mem_map] at h
    rw [Entries.keys_cons]
    rcases h with ⟨keys, _, rfl⟩ | h
    · exact ⟨key, List.mem_cons_self, keys, rfl⟩
    · obtain ⟨other, hother, keys, rfl⟩ := ih h
      exact ⟨other, List.mem_cons_of_mem _ hother, keys, rfl⟩

mutual

theorem Binding.nodup_gaps (binding : Binding) (h : binding.Distinct) :
    (binding.gaps source).Nodup := by
  cases binding with
  | tree bindings => exact nodup_gapsIn bindings h
  | _ =>
    rw [Binding.gaps]
    · split <;> simp
    · simp

theorem nodup_gapsIn (bindings : List (String × Binding)) (h : DistinctIn bindings) :
    (gapsIn source bindings).Nodup := by
  match bindings with
  | [] => exact List.nodup_nil
  | (key, binding) :: rest =>
    rw [gapsIn, List.nodup_append']
    refine ⟨(binding.nodup_gaps h.2.1).map (List.cons_injective), nodup_gapsIn rest h.2.2, ?_⟩
    intro gap hgap hrest
    obtain ⟨keys, _, rfl⟩ := List.mem_map.mp hgap
    obtain ⟨other, hother, _, heq⟩ := exists_key_of_mem_gapsIn hrest
    rw [List.cons.injEq] at heq
    exact h.1 (heq.1 ▸ hother)

end

end Gaps

namespace Outcome

variable {defaults : Defaults} {done gaps : List (List String)} {key : String} {before : Outcome}

theorem add_fill_absent (errors : List FieldError) :
    (before.fill defaults done).add key ⟨defaults.get? key, errors⟩ =
      (before.add key ⟨none, errors⟩).fill defaults (done ++ [[key]]) := by
  simp only [fill, add, Members.fill_append, Members.fill_cons, Members.fill_nil, Members.fillGap,
    Defaults.resolve_singleton]
  cases defaults.get? key <;> rfl

theorem add_fill_present (hdone : ∀ gap ∈ done, gap.head? ≠ some key) (v : Value)
    (errors : List FieldError) :
    (before.fill defaults done).add key ⟨some v, errors⟩ =
      (before.add key ⟨some v, errors⟩).fill defaults done := by
  simp only [fill, add, Members.fill_insert_of_ne hdone]

theorem add_fill_tree (hdone : ∀ gap ∈ done, gap.head? ≠ some key) (hgaps : ∀ gap ∈ gaps, gap ≠ [])
    (inner : Members) (errors : List FieldError) :
    (before.fill defaults done).add key
        ⟨some (.object (inner.fill (defaults.subtree key) gaps)), errors⟩ =
      (before.add key ⟨some (.object inner), errors⟩).fill defaults
        (done ++ gaps.map (key :: ·)) := by
  simp only [fill, add, Members.fill_append, Members.fill_insert_of_ne hdone,
    Members.fill_map_insert hgaps]

end Outcome

/-- A default takes the place of an absent value, and no other one. -/
def Contribution.gaps : Except Failure Contribution → List (List String)
  | .ok ⟨none, _⟩ => [[]]
  | _ => []

theorem Contribution.gaps_embed (mode : Mode) (key : String) (child : Except MappingFault Outcome) :
    gaps (embed mode key child) = [] := by
  rcases child with fault | ⟨result, _ | ⟨first, rest⟩⟩ <;> cases mode <;> rfl

theorem settle_fill {defaults : Defaults} {done : List (List String)} {key : String}
    (hdone : ∀ gap ∈ done, gap.head? ≠ some key) (mode : Mode) (before : Outcome)
    (r : Except Failure Contribution) :
    (settle mode key (r.map (.orDefault (defaults.get? key)))).map
        ((before.fill defaults done).add key) =
      ((settle mode key (r.map (.orDefault none))).map (before.add key)).map
        (.fill defaults (done ++ (Contribution.gaps r).map (key :: ·))) := by
  rcases r with failure | ⟨_ | v, errors⟩
  · rw [Contribution.gaps, List.map_nil, List.append_nil]
    · cases mode <;> rfl
    · simp
  · exact congrArg Except.ok (Outcome.add_fill_absent errors)
  · rw [Contribution.gaps, List.map_nil, List.append_nil]
    · exact congrArg Except.ok (Outcome.add_fill_present hdone v errors)
    · simp

theorem lacks_of_settle {mode : Mode} {key : String} {before o : Outcome}
    {r : Except Failure Contribution} (hbefore : before.result.lookup key = none)
    (ho : (settle mode key (r.map (.orDefault none))).map (before.add key) = .ok o) :
    ∀ gap ∈ Contribution.gaps r, o.result.Lacks (key :: gap) := by
  intro gap hgap
  rcases r with failure | ⟨_ | v, errors⟩
  · cases hgap
  · obtain rfl := List.mem_singleton.mp hgap
    rw [← Except.ok.inj ho]
    exact .here hbefore
  · cases hgap

section Fields

variable {e : List String → MapperId → Except Error Procedure} {mode : Mode} {source : Value}

theorem Binding.leaf_of_build {binding : Binding} (hleaf : ∀ bindings, binding ≠ .tree bindings)
    {defaults : Defaults} {keys : List String} {key : String} {plan : Plan}
    (hplan : binding.build e mode defaults keys key = .ok plan) :
    binding.gaps source = Contribution.gaps (plan.contribution mode source key) ∧
      ∀ others : Defaults, plan.default others key = others.get? key := by
  cases binding with
  | path text shape =>
    obtain ⟨path, hpath, rfl⟩ := Binding.build_path_eq_ok_iff.mp hplan
    refine ⟨?_, fun _ => rfl⟩
    simp only [Binding.gaps, Binding.found?, readable?_eq_some hpath, Option.map_some,
      Plan.contribution]
    rcases path.resolveAs shape source with fault | _ | v <;> rfl
  | transform f =>
    obtain rfl := Except.ok.inj hplan
    refine ⟨?_, fun _ => rfl⟩
    simp only [Binding.gaps, Binding.found?, Plan.contribution]
    rcases f source with fault | _ | v <;> rfl
  | mapper id text? =>
    obtain ⟨at?, hat, p, _, rfl⟩ := Binding.build_mapper_eq_ok_iff.mp hplan
    refine ⟨?_, fun _ => rfl⟩
    simp only [Binding.gaps, Binding.found?, selected?_eq_some source hat, Plan.contribution]
    rcases embeddedSource at? source with fault | _ | v
    · rfl
    · rfl
    · exact (Contribution.gaps_embed mode key (p.evaluate v)).symm
  | tree bindings => exact absurd rfl (hleaf bindings)

mutual

/-- A field with a default does what it does without one, and then its gaps are filled. -/
theorem Binding.step_fill (binding : Binding) {defaults : Defaults} {keys : List String}
    {key : String} {plan plain : Plan} {done : List (List String)} (before : Outcome)
    (hplan : binding.build e mode defaults keys key = .ok plan)
    (hplain : binding.build e mode .empty keys key = .ok plain) (hbinding : binding.Distinct)
    (hdone : ∀ gap ∈ done, gap.head? ≠ some key) :
    (Field.mk key plan (plan.default defaults key)).step mode source (before.fill defaults done) =
      ((Field.mk key plain (plain.default .empty key)).step mode source before).map
        (.fill defaults (done ++ (binding.gaps source).map (key :: ·))) := by
  cases binding with
  | tree bindings =>
    obtain ⟨fields, hfields, rfl⟩ := Binding.build_tree_eq_ok_iff.mp hplan
    obtain ⟨fields', hfields', rfl⟩ := Binding.build_tree_eq_ok_iff.mp hplain
    have hinner := evaluateFields_fill bindings .empty hfields hfields' hbinding
      fun gap hgap => absurd hgap List.not_mem_nil
    have hempty : Outcome.empty.fill (defaults.subtree key) [] = .empty := rfl
    rw [hempty, List.nil_append] at hinner
    have hgaps : ∀ gap ∈ gapsIn source bindings, gap ≠ [] := by
      intro gap hgap
      obtain ⟨_, _, _, rfl⟩ := exists_key_of_mem_gapsIn hgap
      exact List.cons_ne_nil _ _
    simp only [Field.step, Plan.contribution, Procedure.evaluate, hinner, Binding.gaps]
    rcases hrun : evaluateFields mode source .empty fields' with fault | inner
    · cases mode with
      | failFast => rfl
      | safe =>
        rw [evaluateFields_safe] at hrun
        cases hrun
    · exact congrArg Except.ok (Outcome.add_fill_tree hdone hgaps inner.result _)
  | _ =>
    obtain ⟨hgaps, hdefault⟩ := Binding.leaf_of_build (by simp) hplan
    obtain rfl := Except.ok.inj (hplan.symm.trans hplain)
    rw [hgaps, hdefault, hdefault]
    exact settle_fill hdone mode before _

theorem evaluateFields_fill (bindings : List (String × Binding)) {defaults : Defaults}
    {keys : List String} {fields plain : List Field} {done : List (List String)}
    (before : Outcome) (hfields : buildBindings e mode defaults keys bindings = .ok fields)
    (hplain : buildBindings e mode .empty keys bindings = .ok plain)
    (hbindings : DistinctIn bindings)
    (hdone : ∀ gap ∈ done, ∀ key ∈ Entries.keys bindings, gap.head? ≠ some key) :
    evaluateFields mode source (before.fill defaults done) fields =
      (evaluateFields mode source before plain).map
        (.fill defaults (done ++ gapsIn source bindings)) := by
  match bindings with
  | [] =>
    obtain rfl := Except.ok.inj hfields
    obtain rfl := Except.ok.inj hplain
    rw [gapsIn, List.append_nil]
    rfl
  | (key, binding) :: rest =>
    obtain ⟨plan, hplan, others, hothers, rfl⟩ := buildBindings_cons_eq_ok_iff.mp hfields
    obtain ⟨plan', hplan', others', hothers', rfl⟩ := buildBindings_cons_eq_ok_iff.mp hplain
    obtain ⟨hkey, hbinding, hrest⟩ := hbindings
    -- No gap of the fields so far leads through a key that is still to come.
    have hhead : ∀ gap ∈ done, gap.head? ≠ some key := fun gap hgap =>
      hdone gap hgap key List.mem_cons_self
    have hdone' : ∀ gap ∈ done ++ (binding.gaps source).map (key :: ·),
        ∀ other ∈ Entries.keys rest, gap.head? ≠ some other := by
      intro gap hgap other hother
      rcases List.mem_append.mp hgap with hgap | hgap
      · exact hdone gap hgap other (List.mem_cons_of_mem _ hother)
      · obtain ⟨_, _, rfl⟩ := List.mem_map.mp hgap
        exact fun heq => hkey (Option.some.inj heq ▸ hother)
    have ih := fun o => evaluateFields_fill rest o hothers hothers' hrest hdone'
    rw [evaluateFields_cons, evaluateFields_cons, gapsIn, ← List.append_assoc,
      binding.step_fill before hplan hplan' hbinding hhead]
    rcases (Field.mk key plan' _).step mode source before with fault | o
    · rfl
    · exact ih o

end

mutual

theorem Binding.lacks_of_step (binding : Binding) {keys : List String} {key : String} {plan : Plan}
    {before o : Outcome} (hplan : binding.build e mode .empty keys key = .ok plan)
    (hbinding : binding.Distinct) (hbefore : before.result.lookup key = none)
    (ho : (Field.mk key plan (plan.default .empty key)).step mode source before = .ok o) :
    ∀ gap ∈ binding.gaps source, o.result.Lacks (key :: gap) := by
  cases binding with
  | tree bindings =>
    obtain ⟨fields, hfields, rfl⟩ := Binding.build_tree_eq_ok_iff.mp hplan
    intro gap hgap
    rw [Field.step, Plan.contribution, Procedure.evaluate] at ho
    cases hrun : evaluateFields mode source .empty fields with
    | error fault =>
      rw [hrun] at ho
      cases mode with
      | failFast => cases ho
      | safe =>
        rw [evaluateFields_safe] at hrun
        cases hrun
    | ok inner =>
      rw [hrun] at ho
      have hinner := lacks_of_evaluateFields bindings hfields hbinding (fun _ _ => rfl) hrun
      rw [← Except.ok.inj ho]
      refine .inside ?_ (hinner gap hgap)
      exact (Members.lookup_insert key key _ before.result).trans (if_pos rfl)
  | _ =>
    obtain ⟨hgaps, hdefault⟩ := Binding.leaf_of_build (by simp) hplan
    rw [hdefault] at ho
    rw [hgaps]
    exact lacks_of_settle hbefore ho

theorem lacks_of_evaluateFields (bindings : List (String × Binding)) {keys : List String}
    {fields : List Field} {before o : Outcome}
    (hfields : buildBindings e mode .empty keys bindings = .ok fields)
    (hbindings : DistinctIn bindings)
    (hbefore : ∀ key ∈ Entries.keys bindings, before.result.lookup key = none)
    (ho : evaluateFields mode source before fields = .ok o) :
    ∀ gap ∈ gapsIn source bindings, o.result.Lacks gap := by
  match bindings with
  | [] => exact fun _ hgap => absurd hgap List.not_mem_nil
  | (key, binding) :: rest =>
    obtain ⟨plan, hplan, others, hothers, rfl⟩ := buildBindings_cons_eq_ok_iff.mp hfields
    obtain ⟨hkey, hbinding, hrest⟩ := hbindings
    rw [Entries.keys_cons, List.forall_mem_cons] at hbefore
    rw [evaluateFields_cons, bind_eq_ok_iff] at ho
    obtain ⟨between, hbetween, ho⟩ := ho
    rw [gapsIn, List.forall_mem_append, List.forall_mem_map]
    constructor
    · intro gap hgap
      have hlacks := binding.lacks_of_step hplan hbinding hbefore.1 hbetween gap hgap
      rw [← map_key_of_buildBindings hothers] at hkey
      exact hlacks.congr (lookup_evaluateFields hkey ho)
    · refine lacks_of_evaluateFields rest hothers hrest (fun other hother => ?_) ho
      have hne : other ≠ key := fun heq => hkey (heq ▸ hother)
      rw [lookup_step hne hbetween]
      exact hbefore.2 other hother

end

end Fields

namespace Store

variable {s : Store} {config : Configuration}

theorem Coherent.failure?_compileConfiguration (hs : s.Coherent) (hconfig : config.Within s.size)
    (defaults others : Defaults) (mode : Mode) :
    failure? (s.compileConfiguration config others mode).1 =
      failure? (s.compileConfiguration config defaults mode).1 := by
  have hfailure : ∀ d : Defaults, failure? (s.compileConfiguration config d mode).1 =
      (visitsIn (s.visits []) [] [] config).findSome? Visit.offence? := by
    intro d
    have hinside : ∀ j ∈ config.embedded, ∀ keys, failure? (s.build [] keys j) =
        (reentered? [] keys j).or ((s.visits [] keys j).findSome? Visit.offence?) :=
      fun j _ keys => failure?_build
    rw [hs.compileConfiguration_eq_build hconfig, Configuration.build,
      ← buildBindings_failure? config mode d [] hinside]
    cases buildBindings (s.build []) mode d [] config <;> rfl
  rw [hfailure, hfailure]

/--
A run with defaults ends as one without them does, and with the same errors. In
the result each binding that has found nothing, at any depth of trees, gets the
default at its keys if there is one. There was no member at these keys, and no
other keys lead to anything else than without defaults.
-/
theorem defaults_fill_gaps (hs : s.Reachable) (hconfig : config.Within s.size)
    (hdistinct : config.Distinct) (defaults : Defaults) (mode : Mode) :
    let filled := (s.compileConfiguration config defaults mode).1
    let plain := (s.compileConfiguration config .empty mode).1
    failure? filled = failure? plain ∧
    ∀ p q, filled = .ok p → plain = .ok q → ∀ source,
      let gaps := config.gaps source
      p.run source = (q.run source).map (.fill defaults gaps) ∧
      ∀ o, q.run source = .ok o →
        (∀ gap ∈ gaps, o.result.Lacks gap ∧
          (o.result.fill defaults gaps).at? gap = defaults.resolve gap) ∧
        ∀ keys, (∀ gap ∈ gaps, ¬ gap <+: keys ∧ ¬ keys <+: gap) →
          (o.result.fill defaults gaps).at? keys = o.result.at? keys := by
  intro filled plain
  refine ⟨hs.coherent.failure?_compileConfiguration hconfig _ _ _, fun p q hp hq source => ?_⟩
  intro gaps
  obtain ⟨fields, hfields, rfl⟩ := hs.coherent.fields_of_compileConfiguration hconfig hp
  obtain ⟨plain, hplain, rfl⟩ := hs.coherent.fields_of_compileConfiguration hconfig hq
  have hfill : evaluateFields mode source .empty fields =
      (evaluateFields mode source .empty plain).map (.fill defaults gaps) :=
    evaluateFields_fill config .empty hfields hplain hdistinct
      fun gap hgap => absurd hgap List.not_mem_nil
  rw [Procedure.run, Procedure.run, Procedure.evaluate, Procedure.evaluate, hfill]
  cases hrun : evaluateFields mode source .empty plain with
  | error fault => exact ⟨rfl, fun o ho => by cases ho⟩
  | ok o =>
    have hlacks : ∀ gap ∈ gaps, o.result.Lacks gap :=
      lacks_of_evaluateFields config hplain hdistinct (fun _ _ => rfl) hrun
    refine ⟨rfl, fun o' ho' => ?_⟩
    obtain rfl := Except.ok.inj ho'
    refine ⟨fun gap hgap => ⟨hlacks gap hgap, ?_⟩, fun keys hapart => ?_⟩
    · exact Members.at?_fill_of_mem (nodup_gapsIn config hdistinct) hlacks hgap
    · exact Members.at?_fill_of_apart hapart o.result

theorem defaults_fill_gaps_ownedPart :
    let gaps := [["part", "size"], ["part", "owner"]]
    ∃ p q o, (naming.compileConfiguration ownedPart ownedPartDefaults .safe).1 = .ok p ∧
      (naming.compileConfiguration ownedPart .empty .safe).1 = .ok q ∧
      q.run (.object []) = .ok o ∧
      p.run (.object []) = .ok (o.fill ownedPartDefaults gaps) ∧
      o.result.Lacks ["part", "size"] ∧
      (o.result.fill ownedPartDefaults gaps).at? ["part", "size"] = some (.int 1) ∧
      (o.result.fill ownedPartDefaults gaps).at? ["part", "owner"] = none := by
  intro gaps
  have hdistinct : ownedPart.Distinct := by
    simp [Configuration.Distinct, ownedPart, DistinctIn, Binding.Distinct, Entries.keys]
  have hgaps : ownedPart.gaps (.object []) = gaps := by decide +kernel
  obtain ⟨q, hq⟩ : ∃ q, (naming.compileConfiguration ownedPart .empty .safe).1 = .ok q :=
    failure?_eq_none_iff.mp (by decide +kernel)
  obtain ⟨hfailure, hruns⟩ := defaults_fill_gaps reachable_naming (by decide) hdistinct
    ownedPartDefaults .safe
  rw [hq, failure?_ok] at hfailure
  obtain ⟨p, hp⟩ := failure?_eq_none_iff.mp hfailure
  obtain ⟨hrun, hfilled⟩ := hruns p q hp hq (.object [])
  obtain ⟨o, ho⟩ : ∃ o, q.run (.object []) = .ok o := by
    have hsafe : failure? ((naming.compileConfiguration ownedPart .empty .safe).1.bind
        (·.run (.object []))) = none := by
      decide +kernel
    rw [hq] at hsafe
    exact failure?_eq_none_iff.mp hsafe
  rw [ho] at hrun
  rw [hgaps] at hrun hfilled
  obtain ⟨hat, _⟩ := hfilled o ho
  have hsize := hat ["part", "size"] (by simp [gaps])
  have howner := hat ["part", "owner"] (by simp [gaps])
  exact ⟨p, q, o, hp, hq, ho, hrun, hsize.1, hsize.2, howner.2⟩

end Store

end Reshape
