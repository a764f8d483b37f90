import Reshape.Proofs.Members
import Reshape.Proofs.Running.Modes

/-! # Safe runs

A safe run takes from each field what that contributes on its own. So the outcome
of a list of fields is put together from those of its parts.
-/

namespace Reshape

/-- The error is at a key of an object, or somewhere below it. -/
def FieldError.At (key : String) (e : FieldError) : Prop :=
  e.field = key ∨ ∃ rest : String, e.field = s!"{key}.{rest}"

namespace Outcome

/-- The outcome is that of two objects which have no key in common. -/
structure Joins (o₁ o₂ o : Outcome) : Prop where
  disjoint : (Entries.keys o₁.result).Disjoint (Entries.keys o₂.result)
  result : o.result = .ofList (o₁.result ++ o₂.result)
  members : o.result.Perm (o₁.result ++ o₂.result)
  errors : o.errors = o₁.errors ++ o₂.errors

end Outcome

namespace Field

/-- What a field contributes to a safe run; if it fails, that is one error. -/
def contribution (source : Value) : Field → Contribution
  | .mk key plan default =>
    match plan.contribution .safe source key with
    | .ok c => c.orDefault default
    | .error failure => ⟨none, [⟨failure.scope, key, failure.fault⟩]⟩

/-- The member that a field adds to the result of a safe run, unless its value is absent. -/
def member? (source : Value) (f : Field) : Option (String × Value) :=
  (f.contribution source).value.map (f.key, ·)

def errors (source : Value) (f : Field) : List FieldError := (f.contribution source).errors

variable {source : Value} {f : Field}

theorem fst_of_member? {member : String × Value} (h : f.member? source = some member) :
    member.1 = f.key := by
  obtain ⟨_, _, rfl⟩ := Option.map_eq_some_iff.mp h
  rfl

theorem keys_members_sublist (fields : List Field) :
    (Entries.keys (fields.filterMap (member? source))).Sublist (fields.map Field.key) := by
  induction fields with
  | nil => exact .slnil
  | cons f rest ih =>
    cases h : f.member? source with
    | none =>
      rw [List.filterMap_cons_none h]
      exact ih.cons _
    | some member =>
      rw [List.filterMap_cons_some h, List.map_cons, ← fst_of_member? h]
      exact ih.cons_cons _

end Field

theorem Plan.errors_at (plan : Plan) {source : Value} {key : String} {c : Contribution}
    (hc : plan.contribution .safe source key = .ok c) : ∀ e ∈ c.errors, e.At key := by
  have hbelow : ∀ (errors : List FieldError) (relabel : FieldError → FieldError),
      (∀ e, (relabel e).field = s!"{key}.{e.field}") → ∀ e ∈ errors.map relabel, e.At key := by
    intro errors relabel hrelabel e he
    obtain ⟨inner, _, rfl⟩ := List.mem_map.mp he
    exact .inr ⟨inner.field, hrelabel inner⟩
  cases plan with
  | path path shape =>
    rw [Plan.contribution] at hc
    split at hc
    · simp [← Except.ok.inj hc]
    · cases hc
  | transform f =>
    rw [Plan.contribution] at hc
    split at hc
    · simp [← Except.ok.inj hc]
    · cases hc
  | mapper procedure at? =>
    rw [Plan.contribution] at hc
    split at hc
    · cases hc
    · simp [← Except.ok.inj hc]
    · rename_i selected _
      cases ho : procedure.evaluate selected with
      | error fault =>
        rw [ho] at hc
        cases hc
      | ok o =>
        rw [ho] at hc
        rw [← Except.ok.inj hc]
        exact hbelow o.errors (.under key) fun _ => rfl
  | tree procedure =>
    rw [Plan.contribution] at hc
    split at hc
    · rename_i o _
      rw [← Except.ok.inj hc]
      exact hbelow o.errors (.underTree key) fun _ => rfl
    · cases hc

theorem Field.errors_at {source : Value} (f : Field) : ∀ e ∈ f.errors source, e.At f.key := by
  obtain ⟨key, plan, default⟩ := f
  rw [errors, contribution]
  cases hc : plan.contribution .safe source key with
  | ok c =>
    change ∀ e ∈ c.errors, e.At key
    exact plan.errors_at hc
  | error failure =>
    intro e he
    rw [List.mem_singleton.mp he]
    exact .inl rfl

/-- What fields give in safe mode, each on its own. -/
def Outcome.ofFields (source : Value) (fields : List Field) : Outcome where
  result := .ofList (fields.filterMap (·.member? source))
  errors := fields.flatMap (·.errors source)

/-- A safe run never fails, and no field depends on those before it. -/
theorem evaluateFields_safe (fields : List Field) (source : Value) (before : Outcome) :
    evaluateFields .safe source before fields =
      .ok ⟨.insertAll (fields.filterMap (·.member? source)) before.result,
        before.errors ++ fields.flatMap (·.errors source)⟩ := by
  induction fields generalizing before with
  | nil => simp [evaluateFields]
  | cons f rest ih =>
    have hstep : evaluateFields .safe source before (f :: rest) =
        evaluateFields .safe source (before.add f.key (f.contribution source)) rest := by
      obtain ⟨key, plan, default⟩ := f
      rw [Field.contribution]
      cases hplan : plan.contribution .safe source key with
      | ok c => exact evaluateFields_of_ok before default rest hplan
      | error failure => exact evaluateFields_safe_of_error before default rest hplan
    rw [hstep, ih, List.flatMap_cons, ← List.append_assoc]
    cases hc : (f.contribution source).value with
    | none =>
      rw [List.filterMap_cons_none (by rw [Field.member?, hc]; rfl)]
      simp only [Outcome.add, hc, Field.errors]
    | some v =>
      rw [List.filterMap_cons_some (by rw [Field.member?, hc]; rfl)]
      simp only [Outcome.add, hc, Field.errors, Members.insertAll_cons]

theorem Procedure.evaluate_safe (fields : List Field) (source : Value) :
    (Procedure.mk .safe fields).evaluate source = .ok (.ofFields source fields) := by
  rw [Procedure.evaluate, evaluateFields_safe]
  rfl

theorem Procedure.run_safe (fields : List Field) (source : Value) :
    (Procedure.mk .safe fields).run source = .ok (.ofFields source fields) := by
  rw [run, evaluate_safe]
  rfl

theorem Field.contribution_tree (source : Value) (key : String) (inside : List Field)
    (default : Option Value) :
    (Field.mk key (.tree (.mk .safe inside)) default).contribution source =
      ⟨some (.object (Outcome.ofFields source inside).result),
        (Outcome.ofFields source inside).errors.map (.underTree key)⟩ := by
  rw [contribution, Plan.contribution, Procedure.evaluate_safe]
  rfl

theorem Field.member?_tree (source : Value) (key : String) (inside : List Field)
    (default : Option Value) :
    (Field.mk key (.tree (.mk .safe inside)) default).member? source =
      some (key, .object (Outcome.ofFields source inside).result) := by
  rw [member?, contribution_tree]
  rfl

namespace Outcome

variable {source : Value} {fields others : List Field}

theorem nodup_keys_members (source : Value) (h : (fields.map Field.key).Nodup) :
    (Entries.keys (fields.filterMap (·.member? source))).Nodup :=
  h.sublist (Field.keys_members_sublist fields)

theorem results_perm (source : Value) (h : ((fields ++ others).map Field.key).Nodup) :
    ((ofFields source fields).result ++ (ofFields source others).result).Perm
      ((fields ++ others).filterMap (·.member? source)) := by
  have hkeys := nodup_keys_members source h
  rw [List.filterMap_append] at hkeys ⊢
  obtain ⟨hfields, hothers, _⟩ := List.nodup_append'.mp (Entries.keys_append _ _ ▸ hkeys)
  exact (Members.ofList_perm hfields).append (Members.ofList_perm hothers)

theorem nodup_keys_results (source : Value) {key : String}
    (h : (key :: (fields ++ others).map Field.key).Nodup) :
    (key :: Entries.keys ((ofFields source fields).result ++
      (ofFields source others).result)).Nodup := by
  have hperm := results_perm source (List.nodup_cons.mp h).2
  refine ((hperm.map Prod.fst).cons key).nodup_iff.mpr ?_
  exact h.sublist ((Field.keys_members_sublist _).cons_cons key)

/-- Fields that follow each other give the union of what they give alone. -/
theorem joins_ofFields (h : ((fields ++ others).map Field.key).Nodup) :
    Joins (ofFields source fields) (ofFields source others)
      (ofFields source (fields ++ others)) := by
  have hkeys := nodup_keys_members source h
  have hperm := results_perm source h
  have hnodup := (hperm.map Prod.fst).nodup_iff.mpr hkeys
  rw [List.map_append] at hnodup
  exact ⟨List.disjoint_of_nodup_append hnodup, Members.ofList_eq_of_perm hkeys hperm.symm,
    (Members.ofList_perm hkeys).trans hperm.symm, List.flatMap_append⟩

theorem result_ofFields_perm (h : (fields.map Field.key).Nodup) (hperm : fields.Perm others) :
    (ofFields source fields).result = (ofFields source others).result :=
  Members.ofList_eq_of_perm (nodup_keys_members source h) (hperm.filterMap _)

theorem lookup_result_ofFields {f : Field} (h : ((fields ++ f :: others).map Field.key).Nodup)
    (key : String) :
    (ofFields source (fields ++ others)).result.lookup key =
      if key = f.key then none
      else (ofFields source (fields ++ f :: others)).result.lookup key := by
  have hmiddle : ((f :: (fields ++ others)).map Field.key).Nodup :=
    (List.perm_middle.map _).nodup_iff.mp h
  rw [List.map_cons, List.nodup_cons] at hmiddle
  rw [ofFields, ofFields, Members.lookup_ofList (nodup_keys_members source hmiddle.2),
    Members.lookup_ofList (nodup_keys_members source h)]
  split
  · rename_i heq
    refine Members.lookup_eq_none fun hmem => hmiddle.1 ?_
    exact heq ▸ (Field.keys_members_sublist _).subset hmem
  · rename_i hne
    rw [List.filterMap_append, List.filterMap_append, List.lookup_append, List.lookup_append]
    congr 1
    cases hf : f.member? source with
    | none => rw [List.filterMap_cons_none hf]
    | some member =>
      rw [List.filterMap_cons_some hf, Members.lookup_cons, Field.fst_of_member? hf, if_neg hne]

end Outcome

end Reshape
