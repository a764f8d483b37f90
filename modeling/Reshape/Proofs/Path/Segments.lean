import Reshape.Proofs.Results

/-! # Paths and segments

Cutting segments into chunks loses nothing: the chunks with a wildcard between
them are the segments again. So a path is known by its text and its segments.
-/

namespace Reshape

namespace Chunk

theorem split_append (chunk : Chunk) (segments : List Segment) :
    split (chunk.map .access ++ segments) =
      (chunk ++ (split segments).1, (split segments).2) := by
  induction chunk with
  | nil => rfl
  | cons a chunk ih => simp [split, ih]

theorem split_wildcards (rest : List Chunk) :
    split (rest.flatMap fun chunk => .wildcard :: chunk.map .access) = ([], rest) := by
  induction rest with
  | nil => rfl
  | cons chunk rest ih => simp [split, split_append, ih]

end Chunk

namespace Path

theorem split_segments (p : Path) : Chunk.split p.segments = (p.first, p.rest) := by
  rw [segments, Chunk.split_append, Chunk.split_wildcards, List.append_nil]

theorem segments_split (text : String) (segments : List Segment) :
    Path.segments ⟨text, (Chunk.split segments).1, (Chunk.split segments).2⟩ = segments := by
  induction segments with
  | nil => rfl
  | cons segment segments ih =>
    cases segment with
    | access a => simpa [Path.segments, Chunk.split] using ih
    | wildcard => simpa [Path.segments, Chunk.split] using ih

/-- The segments are the chunks, joined by wildcards. -/
theorem segments_eq_intercalate (p : Path) :
    p.segments = [Segment.wildcard].intercalate (p.chunks.map (List.map .access)) := by
  obtain ⟨text, first, rest⟩ := p
  simp only [segments, chunks, List.map_cons]
  induction rest generalizing first with
  | nil => simp
  | cons chunk rest ih =>
    rw [List.map_cons, List.intercalate_cons_cons, ← ih chunk]
    simp

theorem read_eq_ok_iff {text : String} {p : Path} :
    Path.read text = .ok p ↔ p.text = text ∧ parseSegments text = .ok p.segments := by
  rw [Path.read, parse]
  cases parseSegments text with
  | error reason => simp [Except.map, Except.mapError]
  | ok segments =>
    simp only [Except.map, Except.mapError, Except.ok.injEq]
    constructor
    · rintro rfl
      exact ⟨rfl, (segments_split text segments).symm⟩
    · rintro ⟨rfl, rfl⟩
      rw [split_segments]

theorem exists_read_of_parseSegments {text : String} {segments : List Segment}
    (h : parseSegments text = .ok segments) : ∃ p, Path.read text = .ok p ∧ p.segments = segments :=
  have hsegments := segments_split text segments
  ⟨_, read_eq_ok_iff.mpr ⟨rfl, h.trans (congrArg Except.ok hsegments.symm)⟩, hsegments⟩

theorem read_eq_error_iff {text : String} {e : Error} :
    Path.read text = .error e ↔
      ∃ reason, parseSegments text = .error reason ∧ e = .invalidPath text reason := by
  rw [Path.read, parse]
  cases parseSegments text with
  | error reason => simp [Except.map, Except.mapError, eq_comm]
  | ok segments => simp [Except.map, Except.mapError]

end Path

end Reshape
