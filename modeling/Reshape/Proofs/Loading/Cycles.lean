import Reshape.Proofs.Composition.Completion
import Reshape.Proofs.Composition.Later
import Reshape.Proofs.Loading.Load

/-! # Cycles

A mapper that is loaded embeds mappers only that were there before. No cycle
leads through those that are compiled, so a load never fails because of one.
-/

namespace Reshape

def LoadError.IsCircular (e : LoadError) : Prop := ∃ field, e = .mapping (.circularMapper field)

theorem unreadable?_ne_circular (text field : String) :
    unreadable? text ≠ some (.circularMapper field) := by
  rw [unreadable?]
  cases Path.parse text <;> simp

theorem Visit.embeds_of_circular {v : Visit} {field : String}
    (h : v.offence? = some (.circularMapper field)) : ∃ j ∈ v.mappers, v.Embeds j := by
  obtain ⟨keys, mappers, binding⟩ := v
  cases binding with
  | path text shape => exact absurd h (unreadable?_ne_circular text field)
  | transform f => cases h
  | mapper id source =>
    refine ⟨id, ?_, source, rfl⟩
    by_contra hid
    have hreentered : reentered? mappers keys id = none := reentered?_eq_none_iff.mpr hid
    simp only [Visit.offence?, hreentered, Option.or_none] at h
    cases source with
    | none => cases h
    | some text => exact absurd h (unreadable?_ne_circular text field)
  | tree bindings => cases h

/-- No mapper embeds itself through mappers that are compiled. -/
theorem Store.Coherent.compile_ne_circular {s : Store} {id : MapperId} (hs : s.Coherent)
    (hid : id < s.size) (hinside : ∀ j, s.Embeds id j → s.IsCompiled j) (field : String) :
    (s.compile id).1 ≠ .error (.circularMapper field) := by
  rw [hs.compile_eq_build hid, Ne, ← failure?_eq_some_iff, Store.failure?_build, reentered?,
    if_neg List.not_mem_nil, Option.none_or]
  intro h
  obtain ⟨v, hv, hcircular⟩ := List.exists_of_findSome?_eq_some h
  obtain ⟨j, hj, hembeds⟩ := Visit.embeds_of_circular hcircular
  obtain ⟨hlead, hmappers⟩ := Store.leads_of_visits_embeds hv hembeds
  have hloop := (hmappers j hj).resolve_left List.not_mem_nil
  obtain ⟨k, hk, hkj⟩ := Relation.TransGen.head'_iff.mp hlead
  obtain ⟨p, hp⟩ := Store.isCompiled_iff.mp (hs.isCompiled_of_reaches (hinside k hk) hkj)
  exact (Store.build_eq_ok_iff.mp ⟨p, hs.build_of_compiled hp⟩ j .refl).2.2 hloop

section Bindings

variable {env : Environment}

theorem Argument.evaluator_ne_circular (arg : Argument) (field : String) :
    failure? arg.evaluator ≠ some (.circularMapper field) := by
  cases arg with
  | path text =>
    rw [Argument.evaluator, failure?_map, failure?_read]
    exact unreadable?_ne_circular text field
  | literal v => simp [Argument.evaluator]

theorem Registry.extension_of_function (r : Registry) {extension function : String} {e : LoadError}
    (h : r.function extension function = .error e) : ∃ fault, e = .extension fault := by
  rw [Registry.function] at h
  split at h
  · exact ⟨_, (Except.error.inj h).symm⟩
  · split at h
    · exact ⟨_, (Except.error.inj h).symm⟩
    · cases h

theorem Registry.not_circular_of_bindCall {r : Registry} {target : String} {args : List Argument}
    {e : LoadError} (h : r.bindCall target args = .error e) : ¬ e.IsCircular := by
  rintro ⟨field, rfl⟩
  rw [Registry.bindCall] at h
  split at h
  · cases h
  rcases bind_eq_error_iff.mp h with hfunction | ⟨f, _, h⟩
  · obtain ⟨fault, hfault⟩ := r.extension_of_function hfunction
    cases hfault
  rcases bind_eq_error_iff.mp h with hargs | ⟨evaluators, _, h⟩
  · obtain ⟨e, hargs, he⟩ := mapError_eq_error_iff.mp hargs
    have hfailure := failure?_eq_some_iff.mpr hargs
    rw [failure?_mapM, LoadError.mapping.inj he] at hfailure
    obtain ⟨arg, _, harg⟩ := List.exists_of_findSome?_eq_some hfailure
    exact arg.evaluator_ne_circular field harg
  · cases h

mutual

theorem FieldSpec.not_circular_of_bind (spec : FieldSpec) {e : LoadError}
    (h : spec.bind env = .error e) : ¬ e.IsCircular := by
  cases spec with
  | path text => cases h
  | rule text flatten => cases h
  | call target args => exact Registry.not_circular_of_bindCall h
  | mapper name source =>
    rw [FieldSpec.bind] at h
    split at h
    · obtain rfl := Except.error.inj h
      rintro ⟨field, hfield⟩
      cases hfield
    · cases h
  | tree fields =>
    rw [FieldSpec.bind] at h
    cases hb : bindFields env fields with
    | error e =>
      rw [hb] at h
      obtain rfl := Except.error.inj h
      exact not_circular_of_bindFields fields hb
    | ok bindings =>
      rw [hb] at h
      cases h

theorem not_circular_of_bindFields (fields : List (String × FieldSpec)) {e : LoadError}
    (h : bindFields env fields = .error e) : ¬ e.IsCircular := by
  match fields with
  | [] => cases h
  | (key, spec) :: rest =>
    rw [bindFields] at h
    rcases bind_eq_error_iff.mp h with hspec | ⟨binding, _, h⟩
    · exact spec.not_circular_of_bind hspec
    rcases bind_eq_error_iff.mp h with hrest | ⟨bindings, _, h⟩
    · exact not_circular_of_bindFields rest hrest
    · cases h

end

end Bindings

namespace Loader

variable {l l' : Loader} {d : Document}

theorem Sound.load_not_circular (hl : l.Sound)
    (hcompiled : ∀ name id, l.mappers.get? name = some id → l.store.IsCompiled id) {e : LoadError}
    (h : l.load d = (.error e, l')) : ¬ e.IsCircular := by
  cases hb : bindFields l.toEnvironment d.fields with
  | error fault =>
    rw [load_of_bindFields_error hb] at h
    obtain rfl := Except.error.inj (congrArg Prod.fst h)
    exact not_circular_of_bindFields d.fields hb
  | ok bindings =>
    have hs : (l.draft d bindings).Coherent := (hl.reachable_draft hb).coherent
    have hinside : ∀ j, (l.draft d bindings).Embeds l.store.size j →
        (l.draft d bindings).IsCompiled j := by
      intro j hj
      rw [Store.Embeds, mapper_draft] at hj
      obtain ⟨name, hname⟩ := registered_of_bindFields d.fields hb j (mem_embeddedIn_ofList hj)
      rw [Store.IsCompiled, draft, Store.after,
        Store.mapper_add_of_ne (hl.registered name j hname).ne]
      exact hcompiled name j hname
    rintro ⟨field, rfl⟩
    refine hs.compile_ne_circular size_lt_size_draft hinside field ?_
    rw [load_of_bindFields hb] at h
    cases hcompile : ((l.draft d bindings).compile l.store.size).1 with
    | error fault =>
      rw [hcompile] at h
      rw [LoadError.mapping.inj (Except.error.inj (congrArg Prod.fst h))]
    | ok p =>
      rw [hcompile] at h
      cases h

end Loader

end Reshape
