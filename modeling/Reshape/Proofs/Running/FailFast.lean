import Reshape.Proofs.Running.FailingPoint

/-! # Running in both modes

A fail-fast run does what a safe run of the same bindings does until the first
binding fails, and ends there.
-/

namespace Reshape

/-- The fault that a failing point ends a fail-fast run with; a mapper around it leaves the text. -/
def FailingPoint.stop (p : FailingPoint) : MappingFault :=
  if p.InMapper then .nested p.fault.message else p.fault

def stopAt (points : List FailingPoint) (o : Outcome) : Except MappingFault Outcome :=
  match points with
  | [] => .ok o
  | first :: _ => .error first.stop

namespace FailingPoint

theorem message_stop (p : FailingPoint) : p.stop.message = p.fault.message := by
  rw [stop]
  split <;> rfl

theorem stop_inside_mapper (key : String) (p : FailingPoint) :
    (p.inside (.mapper key)).stop = .nested p.fault.message :=
  if_pos (p.inMapper_inside_mapper key)

theorem stop_inside_tree (key : String) (p : FailingPoint) :
    (p.inside (.tree key)).stop = p.stop := by
  simp only [stop, p.inMapper_inside_tree key]
  rfl

end FailingPoint

/-- What a field gives in safe mode and in fail-fast mode, with its failing points. -/
inductive InBothModes (key : String) :
    List FailingPoint → Except Failure Contribution → Except Failure Contribution → Prop where
  | sound (v : Option Value) : InBothModes key [] (.ok ⟨v, []⟩) (.ok ⟨v, []⟩)
  | failed (failure : Failure) :
    InBothModes key [⟨[], key, failure.scope, failure.fault⟩] (.error failure) (.error failure)
  | collected (v : Option Value) (first : FailingPoint) (rest : List FailingPoint)
    (failure : Failure) (h : failure.fault = first.stop) :
    InBothModes key (first :: rest) (.ok ⟨v, (first :: rest).map FailingPoint.toError⟩)
      (.error failure)

theorem embed_errors_of_failFast {key : String} {child : Except MappingFault Outcome}
    {c : Contribution} (hc : embed .failFast key child = .ok c) : c.errors = [] := by
  rcases child with fault | ⟨result, _ | ⟨first, rest⟩⟩
  · cases hc
  · rw [← Except.ok.inj hc]
    rfl
  · cases hc

mutual

theorem Procedure.errors_of_failFast (p : Procedure) {source : Value} {o : Outcome}
    (hmode : p.mode = .failFast) (hp : p.Uniform) (ho : p.evaluate source = .ok o) :
    o.errors = [] := by
  cases p with
  | mk mode fields =>
    obtain rfl : mode = .failFast := hmode
    exact evaluateFields_errors_of_failFast fields hp ho

theorem evaluateFields_errors_of_failFast (fields : List Field) {source : Value}
    {before o : Outcome} (hf : UniformFields .failFast fields)
    (ho : evaluateFields .failFast source before fields = .ok o) : o.errors = before.errors := by
  match fields with
  | [] => rw [← Except.ok.inj ho]
  | .mk key plan default :: rest =>
    cases hplan : plan.contribution .failFast source key with
    | error failure =>
      rw [evaluateFields_failFast_of_error before default rest hplan] at ho
      cases ho
    | ok c =>
      rw [evaluateFields_of_ok before default rest hplan] at ho
      rw [evaluateFields_errors_of_failFast rest hf.2 ho]
      simp [plan.errors_of_failFast hf.1 hplan]

theorem Plan.errors_of_failFast (plan : Plan) {source : Value} {key : String} {c : Contribution}
    (hplan : plan.Uniform .failFast)
    (hc : plan.contribution .failFast source key = .ok c) : c.errors = [] := by
  cases plan with
  | path path shape =>
    rw [Plan.contribution] at hc
    split at hc
    · rw [← Except.ok.inj hc]
    · cases hc
  | transform f =>
    rw [Plan.contribution] at hc
    split at hc
    · rw [← Except.ok.inj hc]
    · cases hc
  | mapper procedure at? =>
    rw [Plan.contribution] at hc
    split at hc
    · cases hc
    · rw [← Except.ok.inj hc]
    · exact embed_errors_of_failFast hc
  | tree procedure =>
    rw [Plan.contribution] at hc
    split at hc
    · rename_i o ho
      rw [← Except.ok.inj hc, procedure.errors_of_failFast hplan.1 hplan.2 ho]
      rfl
    · cases hc

end

section BothModes

variable {source : Value}

theorem InBothModes.cons {key : String} {points others : List FailingPoint} {plan plan' : Plan}
    (h : InBothModes key points (plan.contribution .safe source key)
      (plan'.contribution .failFast source key))
    {rest rest' : List Field} (default : Option Value) (before : Outcome)
    (hrest : ∀ before, ∃ result,
      evaluateFields .safe source before rest =
        .ok ⟨result, before.errors ++ others.map FailingPoint.toError⟩ ∧
      evaluateFields .failFast source before rest' = stopAt others ⟨result, before.errors⟩) :
    ∃ result,
      evaluateFields .safe source before (.mk key plan default :: rest) =
        .ok ⟨result, before.errors ++ (points ++ others).map FailingPoint.toError⟩ ∧
      evaluateFields .failFast source before (.mk key plan' default :: rest') =
        stopAt (points ++ others) ⟨result, before.errors⟩ := by
  generalize hsafe : plan.contribution .safe source key = safe at h
  generalize hfast : plan'.contribution .failFast source key = fast at h
  cases h with
  | sound v =>
    obtain ⟨result, hs, hf⟩ := hrest (before.add key (.orDefault default ⟨v, []⟩))
    rw [evaluateFields_of_ok before default rest hsafe,
      evaluateFields_of_ok before default rest' hfast, hs, hf]
    exact ⟨result, by simp, by simp⟩
  | failed failure =>
    obtain ⟨result, hs, _⟩ :=
      hrest (before.add key ⟨none, [⟨failure.scope, key, failure.fault⟩]⟩)
    rw [evaluateFields_safe_of_error before default rest hsafe,
      evaluateFields_failFast_of_error before default rest' hfast, hs]
    exact ⟨result, by simp [FailingPoint.toError, FailingPoint.keys], rfl⟩
  | collected v first more failure h =>
    obtain ⟨result, hs, _⟩ :=
      hrest (before.add key (.orDefault default ⟨v, (first :: more).map FailingPoint.toError⟩))
    rw [evaluateFields_of_ok before default rest hsafe,
      evaluateFields_failFast_of_error before default rest' hfast, hs, h]
    exact ⟨result, by simp, rfl⟩

theorem InBothModes.of_errors {key : String} {points : List FailingPoint} {v : Option Value}
    {errors : List FieldError} {fast : Except Failure Contribution}
    (herrors : errors = points.map FailingPoint.toError) (hnil : points = [] → fast = .ok ⟨v, []⟩)
    (hcons : ∀ first rest, points = first :: rest →
      ∃ failure, fast = .error failure ∧ failure.fault = first.stop) :
    InBothModes key points (.ok ⟨v, errors⟩) fast := by
  subst herrors
  cases points with
  | nil =>
    rw [hnil rfl]
    exact .sound v
  | cons first rest =>
    obtain ⟨failure, rfl, hfault⟩ := hcons first rest rfl
    exact .collected v first rest failure hfault

/-- A safe mapper collects its failures, and a fail-fast parent ends with the first of them. -/
theorem InBothModes.embed (key : String) {points : List FailingPoint} {o : Outcome}
    (ho : o.errors = points.map FailingPoint.toError) :
    InBothModes key (points.map (.inside (.mapper key))) (Reshape.embed .safe key (.ok o))
      (Reshape.embed .failFast key (.ok o)) := by
  obtain ⟨result, errors⟩ := o
  obtain rfl : errors = points.map FailingPoint.toError := ho
  refine .of_errors (by simp [FailingPoint.toError_inside_mapper]) ?_ ?_
  · intro hnil
    obtain rfl := List.map_eq_nil_iff.mp hnil
    rfl
  · intro first rest hcons
    obtain ⟨first, rest, rfl, rfl, rfl⟩ := List.map_eq_cons_iff.mp hcons
    exact ⟨⟨.mapper, .nested first.fault.message⟩, rfl, (first.stop_inside_mapper key).symm⟩

mutual

/-- A safe run collects what a fail-fast run of the same bindings ends at. -/
theorem Procedure.evaluate_modes (p : Procedure) (hmode : p.mode = .safe) (hp : p.Uniform)
    (source : Value) :
    ∃ o, p.evaluate source = .ok o ∧
      o.errors = (p.failingPoints source).map FailingPoint.toError ∧
      (p.withMode .failFast).evaluate source = stopAt (p.failingPoints source) ⟨o.result, []⟩ := by
  cases p with
  | mk mode fields =>
    obtain rfl : mode = .safe := hmode
    obtain ⟨result, hsafe, hfast⟩ := evaluateFields_modes fields hp source .empty
    exact ⟨_, hsafe, rfl, hfast⟩

theorem evaluateFields_modes (fields : List Field) (hf : UniformFields .safe fields)
    (source : Value) (before : Outcome) :
    ∃ result,
      evaluateFields .safe source before fields =
        .ok ⟨result, before.errors ++ (failingPointsOf source fields).map FailingPoint.toError⟩ ∧
      evaluateFields .failFast source before (fieldsWithMode .failFast fields) =
        stopAt (failingPointsOf source fields) ⟨result, before.errors⟩ := by
  match fields with
  | [] => exact ⟨before.result, by simp [evaluateFields, failingPointsOf], rfl⟩
  | .mk key plan default :: rest =>
    exact (plan.contribution_modes hf.1 source key).cons default before
      (evaluateFields_modes rest hf.2 source)

theorem Plan.contribution_modes (plan : Plan) (hplan : plan.Uniform .safe) (source : Value)
    (key : String) :
    InBothModes key (plan.failingPoints source key) (plan.contribution .safe source key)
      ((plan.withMode .failFast).contribution .failFast source key) := by
  cases plan with
  | path path shape =>
    simp only [Plan.failingPoints, Plan.withMode, Plan.contribution]
    cases path.resolveAs shape source with
    | ok v => exact .sound v
    | error fault => exact .failed ⟨.field, fault⟩
  | transform f =>
    simp only [Plan.failingPoints, Plan.withMode, Plan.contribution]
    cases f source with
    | ok v => exact .sound v
    | error fault => exact .failed ⟨.field, fault⟩
  | mapper procedure at? =>
    simp only [Plan.failingPoints, Plan.withMode, Plan.contribution]
    rcases embeddedSource at? source with fault | _ | selected
    · exact .failed ⟨.mapper, fault⟩
    · exact .sound none
    · cases hmode : procedure.mode with
      | safe =>
        obtain ⟨o, ho, herrors, _⟩ := procedure.evaluate_modes hmode hplan selected
        simp only [ho]
        exact .embed key herrors
      | failFast =>
        cases ho : procedure.evaluate selected with
        | error fault =>
          simp only [ho]
          exact .failed ⟨.mapper, .nested fault.message⟩
        | ok o =>
          simp only [ho]
          have hnil : o.errors = ([] : List FailingPoint).map FailingPoint.toError :=
            procedure.errors_of_failFast hmode hplan ho
          exact .embed key hnil
  | tree procedure =>
    obtain ⟨o, ho, herrors, hfast⟩ := procedure.evaluate_modes hplan.1 hplan.2 source
    simp only [Plan.failingPoints, Plan.withMode, Plan.contribution, ho, hfast]
    refine .of_errors (by simp [herrors, FailingPoint.toError_inside_tree]) ?_ ?_
    · intro hnil
      rw [List.map_eq_nil_iff.mp hnil]
      rfl
    · intro first rest hcons
      obtain ⟨first, rest, hpoints, rfl, rfl⟩ := List.map_eq_cons_iff.mp hcons
      rw [hpoints]
      exact ⟨⟨.nestedField, first.stop⟩, rfl, (first.stop_inside_tree key).symm⟩

end

end BothModes

namespace Store

variable {s t : Store} {config : Configuration} {defaults : Defaults} {p : Procedure}

/--
A fail-fast run ends at the first error of the safe run of the same configuration,
with its fault or, if it comes from inside a safe mapper, with the text of that.
If there is no error, both runs have the same result.
-/
theorem failFast_ends_at_first_error (hs : s.Reachable) (ht : t.Reachable)
    (hst : t.forget = s.forget) (hconfig : config.Within s.size)
    (hp : (s.compileConfiguration config defaults .safe).1 = .ok p) :
    ∃ q, (t.compileConfiguration config defaults .failFast).1 = .ok q ∧
      ∀ source, ∃ o, p.run source = .ok o ∧
        o.errors = (p.failingPoints source).map FailingPoint.toError ∧
        ((∃ r, q.run source = .ok r) ↔ o.errors = []) ∧
        (o.errors = [] → q.run source = .ok ⟨o.result, []⟩) ∧
        ∀ first rest, o.errors = first :: rest →
          ∃ fault, q.run source = .error (.mapping fault) ∧
            fault.message = first.fault.message ∧
            ∃ point, (p.failingPoints source).head? = some point ∧ first = point.toError ∧
              (point.InMapper → fault = .nested first.fault.message) ∧
              (¬ point.InMapper → fault = first.fault) := by
  obtain ⟨hmode, huniform⟩ := hs.coherent.compileConfiguration_uniform hconfig hp
  have hq :=
    hs.coherent.compileConfiguration_withMode ht.coherent hst hconfig defaults .safe .failFast
  rw [hp, map_ok] at hq
  refine ⟨_, hq, fun source => ?_⟩
  obtain ⟨o, ho, herrors, hfast⟩ := p.evaluate_modes hmode huniform source
  have hnil : o.errors = [] ↔ p.failingPoints source = [] := by
    rw [herrors, List.map_eq_nil_iff]
  refine ⟨o, by rw [Procedure.run, ho]; rfl, herrors, ?_⟩
  rw [Procedure.run, hfast]
  refine ⟨?_, fun h => ?_, fun first rest h => ?_⟩
  · rw [hnil]
    cases p.failingPoints source <;> simp [stopAt, Except.mapError]
  · rw [hnil.mp h]
    rfl
  · rw [herrors] at h
    obtain ⟨point, points, hpoints, rfl, _⟩ := List.map_eq_cons_iff.mp h
    rw [hpoints]
    exact ⟨point.stop, rfl, point.message_stop, point, rfl, rfl, fun h => if_pos h,
      fun h => if_neg h⟩

/-- A safe mapper that is given a list where it needs an object. -/
def boxing : Store := Store.empty.after (.create [("size", .path "size" .nested)] .empty .safe)

def boxedPart : Configuration :=
  [("name", .path "name" .nested), ("part", .tree [("box", .mapper 0 (some "box"))])]

def listedBox : Value := .object [("box", .array [])]

theorem reachable_boxing : boxing.Reachable := .step .empty (by decide)

theorem failFast_ends_at_first_error_listedBox :
    ∃ p q, (boxing.compileConfiguration boxedPart .empty .safe).1 = .ok p ∧
      (boxing.compileConfiguration boxedPart .empty .failFast).1 = .ok q ∧
      p.failingPoints listedBox =
        [⟨[.tree "part", .mapper "box"], "size", .field,
          .unresolved "size" "cannot read 'size' of array value"⟩] ∧
      q.run listedBox = .error (.mapping
        (.nested "cannot resolve path 'size': cannot read 'size' of array value")) := by
  obtain ⟨p, hp⟩ : ∃ p, (boxing.compileConfiguration boxedPart .empty .safe).1 = .ok p :=
    failure?_eq_none_iff.mp (by decide +kernel)
  have hpoints : (boxing.compileConfiguration boxedPart .empty .safe).1.map
      (Procedure.failingPoints listedBox) = .ok
        [⟨[.tree "part", .mapper "box"], "size", .field,
          .unresolved "size" "cannot read 'size' of array value"⟩] := by
    decide +kernel
  rw [hp] at hpoints
  have hpoints := Except.ok.inj hpoints
  obtain ⟨q, hq, hrun⟩ :=
    failFast_ends_at_first_error reachable_boxing reachable_boxing rfl (by decide) hp
  obtain ⟨o, _, herrors, _, _, hfirst⟩ := hrun listedBox
  rw [hpoints, List.map_cons] at herrors
  obtain ⟨fault, hfault, _, point, hpoint, _, hnested, _⟩ := hfirst _ _ herrors
  rw [hpoints] at hpoint
  obtain rfl := Option.some.inj hpoint
  rw [hnested (by decide)] at hfault
  exact ⟨p, q, hp, hq, hpoints, hfault⟩

end Store

end Reshape
