import Reshape.Loader.Basic
import Reshape.Proofs.Composition.Embedding
import Reshape.Proofs.Documents.WellFormed
import Reshape.Proofs.Results

/-! # Bindings of fields

Fields become bindings one by one, in their order. A binding embeds registered
mappers only, and where no target key is declared twice, collecting the bindings
by key neither drops nor moves any of them.
-/

namespace Reshape

section Embedded

variable {j : MapperId}

theorem mem_embeddedIn_put {key : String} {binding : Binding} {entries : Entries Binding}
    (h : j ∈ embeddedIn (entries.put key binding)) :
    j ∈ binding.embedded ∨ j ∈ embeddedIn entries := by
  induction entries with
  | nil => simpa [Entries.put, embeddedIn] using h
  | cons entry rest ih =>
    obtain ⟨k, other⟩ := entry
    rw [Entries.put] at h
    split at h
    · rw [embeddedIn, List.mem_append] at h ⊢
      exact h.imp id .inr
    · rw [embeddedIn, List.mem_append] at h ⊢
      rcases h with h | h
      · exact .inr (.inl h)
      · exact (ih h).imp id .inr

theorem mem_embeddedIn_ofList {bindings : List (String × Binding)}
    (h : j ∈ embeddedIn (Entries.ofList bindings)) : j ∈ embeddedIn bindings := by
  suffices hfold : ∀ acc : Entries Binding,
      j ∈ embeddedIn (bindings.foldl (fun acc (key, binding) => Entries.put key binding acc) acc) →
        j ∈ embeddedIn acc ∨ j ∈ embeddedIn bindings from
    (hfold [] h).resolve_left List.not_mem_nil
  clear h
  induction bindings with
  | nil => exact fun acc h => .inl h
  | cons entry rest ih =>
    obtain ⟨key, binding⟩ := entry
    intro acc h
    rw [embeddedIn, List.mem_append]
    rcases ih _ h with h | h
    · exact (mem_embeddedIn_put h).symm.imp id .inl
    · exact .inr (.inr h)

end Embedded

section Fields

variable {env : Environment} {key target : String} {args : List Argument} {binding : Binding}
  {bindings : List (String × Binding)}

theorem bindCall_eq_ok_iff {r : Registry} :
    r.bindCall target args = .ok binding ↔
      ∃ extension function, callTarget? target = some (extension, function) ∧
        ∃ f, r.function extension function = .ok f ∧
          ∃ evaluators, args.mapM Argument.evaluator = .ok evaluators ∧
            .transform (f.toTransform evaluators) = binding := by
  rw [Registry.bindCall]
  rcases callTarget? target with _ | ⟨extension, function⟩
  · simp [throw, throwThe, MonadExceptOf.throw]
  · have hargs : ∀ f : Function, (do
        let evaluators ← (args.mapM Argument.evaluator).mapError LoadError.mapping
        return Binding.transform (f.toTransform evaluators)) = Except.ok binding ↔
          ∃ evaluators, args.mapM Argument.evaluator = .ok evaluators ∧
            .transform (f.toTransform evaluators) = binding := by
      intro f
      cases args.mapM Argument.evaluator with
      | error e => simp [Except.mapError]
      | ok evaluators => simp [Except.mapError]
    simp only [Option.some.injEq, Prod.mk.injEq, bind_eq_ok_iff, hargs]
    constructor
    · exact fun h => ⟨_, _, ⟨rfl, rfl⟩, h⟩
    · rintro ⟨_, _, ⟨rfl, rfl⟩, h⟩
      exact h

theorem bind_mapper_eq_ok_iff {name : String} {source : Option String} :
    (FieldSpec.mapper name source).bind env = .ok binding ↔
      ∃ id, env.mappers.get? name = some id ∧ .mapper id source = binding := by
  rw [FieldSpec.bind]
  cases env.mappers.get? name <;> simp

theorem bind_tree_eq_ok_iff {fields : List (String × FieldSpec)} :
    (FieldSpec.tree fields).bind env = .ok binding ↔
      ∃ bindings, bindFields env fields = .ok bindings ∧
        .tree (Entries.ofList bindings) = binding := by
  rw [FieldSpec.bind]
  exact map_eq_ok_iff

theorem bindFields_cons_eq_ok_iff {spec : FieldSpec} {rest : List (String × FieldSpec)} :
    bindFields env ((key, spec) :: rest) = .ok bindings ↔
      ∃ binding, spec.bind env = .ok binding ∧
        ∃ others, bindFields env rest = .ok others ∧ (key, binding) :: others = bindings := by
  simp only [bindFields, bind_eq_ok_iff, pure_eq_ok_iff]

theorem keys_of_bindFields {fields : List (String × FieldSpec)}
    (h : bindFields env fields = .ok bindings) :
    Entries.keys bindings = Entries.keys fields := by
  induction fields generalizing bindings with
  | nil =>
    obtain rfl := Except.ok.inj h
    rfl
  | cons field rest ih =>
    obtain ⟨key, spec⟩ := field
    obtain ⟨binding, _, others, hothers, rfl⟩ := bindFields_cons_eq_ok_iff.mp h
    rw [Entries.keys_cons, Entries.keys_cons, ih hothers]

mutual

theorem FieldSpec.registered_of_bind (spec : FieldSpec) {binding : Binding}
    (h : spec.bind env = .ok binding) :
    ∀ j ∈ binding.embedded, ∃ name, env.mappers.get? name = some j := by
  cases spec with
  | path text =>
    obtain rfl := Except.ok.inj h
    exact fun j hj => absurd hj List.not_mem_nil
  | rule text flatten =>
    obtain rfl := Except.ok.inj h
    exact fun j hj => absurd hj List.not_mem_nil
  | call target args =>
    obtain ⟨_, _, _, _, _, _, _, rfl⟩ := bindCall_eq_ok_iff.mp h
    exact fun j hj => absurd hj List.not_mem_nil
  | mapper name source =>
    obtain ⟨id, hid, rfl⟩ := bind_mapper_eq_ok_iff.mp h
    intro j hj
    rw [List.mem_singleton.mp hj]
    exact ⟨name, hid⟩
  | tree fields =>
    obtain ⟨bindings, hbindings, rfl⟩ := bind_tree_eq_ok_iff.mp h
    intro j hj
    exact registered_of_bindFields fields hbindings j (mem_embeddedIn_ofList hj)

/-- The mappers that fields embed are registered. -/
theorem registered_of_bindFields (fields : List (String × FieldSpec))
    {bindings : List (String × Binding)}
    (h : bindFields env fields = .ok bindings) :
    ∀ j ∈ embeddedIn bindings, ∃ name, env.mappers.get? name = some j := by
  match fields with
  | [] =>
    obtain rfl := Except.ok.inj h
    exact fun j hj => absurd hj List.not_mem_nil
  | (key, spec) :: rest =>
    obtain ⟨binding, hbinding, others, hothers, rfl⟩ := bindFields_cons_eq_ok_iff.mp h
    exact forall_embeddedIn_cons.mpr
      ⟨spec.registered_of_bind hbinding, registered_of_bindFields rest hothers⟩

end

end Fields

end Reshape
