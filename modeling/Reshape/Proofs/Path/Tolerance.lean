import Reshape.Proofs.Path.Evaluation

/-! # Strict and tolerant access

A chunk is followed strictly from the source of a path, and tolerantly from the
elements of a collection. Both ways find the same value. They differ only where the
first access meets a value of another kind, which is an obstacle on the strict way
and absence on the tolerant one. A tolerant way can be interrupted anywhere.
-/

namespace Reshape

theorem Access.follow?_eq_none {a : Access} {v : Value} (h : v.kind ≠ a.container) :
    a.follow? v = none := by
  cases a <;> cases v <;> first | rfl | exact absurd rfl h

namespace Chunk

variable {chunk : Chunk} {v : Value}

theorem resolveTolerant_cons (a : Access) (rest : Chunk) (v : Value) :
    resolveTolerant (a :: rest) v = (a.follow? v).bind rest.resolveTolerant :=
  List.foldlM_cons

theorem resolveTolerant_append (chunk more : Chunk) (v : Value) :
    (chunk ++ more).resolveTolerant v = (chunk.resolveTolerant v).bind more.resolveTolerant :=
  List.foldlM_append

/-- Only the first access is strict, and all it asks for is a value of its kind. -/
theorem resolveStrict_cons (a : Access) (rest : Chunk) (v : Value) :
    resolveStrict (a :: rest) v =
      if v.kind = a.container then .ok (resolveTolerant (a :: rest) v)
      else .error (.unreadable a v.kind) := by
  have hmisfit : Segment.misfit? v (Path.segments ⟨"", a :: rest, []⟩) =
      if v.kind = a.container then none else some (.unreadable a v.kind) := rfl
  rw [Segment.resolveStrict_eq (a :: rest) [], hmisfit]
  split_ifs <;> rfl

theorem resolveStrict_eq_error_iff {obstacle : Obstacle} :
    chunk.resolveStrict v = .error obstacle ↔
      ∃ a rest, chunk = a :: rest ∧ v.kind ≠ a.container ∧ obstacle = .unreadable a v.kind := by
  cases chunk with
  | nil => simp [resolveStrict]
  | cons a rest =>
    rw [resolveStrict_cons]
    split_ifs with h
    · simp [h]
    · constructor
      · intro herror
        exact ⟨a, rest, rfl, h, (Except.error.inj herror).symm⟩
      · rintro ⟨b, others, hcons, _, rfl⟩
        rw [(List.cons.inj hcons).1]

theorem resolveTolerant_of_strict {found : Option Value} (h : chunk.resolveStrict v = .ok found) :
    chunk.resolveTolerant v = found := by
  cases chunk with
  | nil => exact Except.ok.inj h
  | cons a rest =>
    rw [resolveStrict_cons] at h
    split_ifs at h with hkind
    exact Except.ok.inj h

theorem resolveTolerant_of_obstacle {obstacle : Obstacle}
    (h : chunk.resolveStrict v = .error obstacle) : chunk.resolveTolerant v = none := by
  obtain ⟨a, rest, rfl, hkind, _⟩ := resolveStrict_eq_error_iff.mp h
  rw [resolveTolerant_cons, Access.follow?_eq_none hkind, Option.bind_none]

/--
The strict way and the tolerant one agree on what they find. There is an obstacle on
the strict way just if the first access meets a value of another kind, whatever comes
later, and nothing is found on the tolerant way then. The tolerant way along two chunks
is the one along the second from what is found along the first.
-/
theorem strict_agrees_with_tolerant (chunk : Chunk) (v : Value) :
    (∀ found, chunk.resolveStrict v = .ok found → chunk.resolveTolerant v = found) ∧
    (∀ obstacle, chunk.resolveStrict v = .error obstacle → chunk.resolveTolerant v = none) ∧
    (∀ obstacle, chunk.resolveStrict v = .error obstacle ↔
      ∃ a rest, chunk = a :: rest ∧ v.kind ≠ a.container ∧ obstacle = .unreadable a v.kind) ∧
    ∀ more : Chunk,
      (chunk ++ more).resolveTolerant v = (chunk.resolveTolerant v).bind more.resolveTolerant :=
  ⟨fun _ => resolveTolerant_of_strict, fun _ => resolveTolerant_of_obstacle,
    fun _ => resolveStrict_eq_error_iff, fun more => resolveTolerant_append chunk more v⟩

/-- A shelf with two rows, the second of which is a text. -/
def shelf : Value := .object [("rows", .array [.array [.int 4], .string "empty"])]

theorem strict_agrees_with_tolerant_shelf :
    resolveStrict [.key "rows", .index 0, .index 0] shelf = .ok (some (.int 4)) ∧
      resolveTolerant [.key "rows", .index 0, .index 0] shelf = some (.int 4) ∧
      resolveStrict [.key "rows", .index 1, .index 0] shelf = .ok none ∧
      resolveTolerant [.key "rows", .index 1, .index 0] shelf = none ∧
      resolveStrict [.argument 0, .key "rows"] shelf =
        .error (.unreadable (.argument 0) .object) ∧
      resolveTolerant [.argument 0, .key "rows"] shelf = none := by
  have hfound : resolveStrict [.key "rows", .index 0, .index 0] shelf = .ok (some (.int 4)) := rfl
  have habsent : resolveStrict [.key "rows", .index 1, .index 0] shelf = .ok none := rfl
  obtain ⟨_, hnone, hobstacle, _⟩ := strict_agrees_with_tolerant [.argument 0, .key "rows"] shelf
  have hargument := (hobstacle (.unreadable (.argument 0) .object)).mpr
    ⟨_, _, rfl, by decide, rfl⟩
  exact ⟨hfound, (strict_agrees_with_tolerant _ _).1 _ hfound, habsent,
    (strict_agrees_with_tolerant _ _).1 _ habsent, hargument, hnone _ hargument⟩

end Chunk

end Reshape
