import Reshape.Proofs.Path.Evaluation

/-! # Leaves of a path

The entries at the last wildcard of a path can be gathered by a walk through the
source, one collection after the other. Merging the array levels of a result
gives the same entries: a null on an inner level stands for a collection that is
not there, and one on the last level is an entry.
-/

namespace Reshape

namespace Segment

def descend : List Segment → Option Value → Option Value
  | [], found => found
  | .access a :: rest, found => descend rest (a.select found)
  | .wildcard :: _, _ => none

/--
The entries at the last wildcard, from left to right: one for each element of
the collections there, which is null if the rest of the path finds nothing. A
collection that is not there has no entries.
-/
def leaves : List Segment → Option Value → List Value
  | [], _ => []
  | .access a :: rest, found => leaves rest (a.select found)
  | .wildcard :: rest, some (.array items) =>
    if .wildcard ∈ rest then items.flatMap fun item => leaves rest (some item)
    else items.map fun item => (descend rest (some item)).getD .null
  | .wildcard :: _, _ => []

theorem follow_eq_descend {segments : List Segment} (h : .wildcard ∉ segments)
    (found : Option Value) : follow segments found = .ok (descend segments found) := by
  induction segments generalizing found with
  | nil => rfl
  | cons segment rest ih =>
    cases segment with
    | access a => exact ih (fun hmem => h (List.mem_cons_of_mem _ hmem)) (a.select found)
    | wildcard => exact absurd List.mem_cons_self h

theorem flatten_zero (v : Value) : v.flatten 0 = [v] := by
  cases v <;> rfl

theorem flatMap_flatten {items entries : List Value} {depth : Nat} {below : Value → List Value}
    (h : List.Forall₂ (fun item entry => entry.flatten depth = below item) items entries) :
    entries.flatMap (Value.flatten depth) = items.flatMap below := by
  induction h with
  | nil => rfl
  | cons hentry _ ih => rw [List.flatMap_cons, List.flatMap_cons, hentry, ih]

/-- Merging the levels of a result gives its leaves; an absent result has none. -/
theorem flatten_of_follow {segments : List Segment} {found result : Option Value}
    (hmem : .wildcard ∈ segments) (h : follow segments found = .ok result) :
    (result.getD .null).flatten (segments.count .wildcard) = leaves segments found := by
  induction segments generalizing found result with
  | nil => cases hmem
  | cons segment rest ih =>
    cases segment with
    | access a =>
      have hrest : .wildcard ∈ rest := by simpa using hmem
      rw [List.count_cons_of_ne (by simp)]
      exact ih hrest h
    | wildcard =>
      rw [List.count_cons_self]
      rcases found with _ | v
      · cases h
        rfl
      · cases v with
        | null =>
          cases h
          rfl
        | array items =>
          obtain ⟨entries, hentries, rfl⟩ := map_eq_ok_iff.mp h
          have hpointwise := mapM_eq_ok_iff.mp hentries
          rw [leaves]
          split
          · rename_i hrest
            refine flatMap_flatten (hpointwise.imp fun item entry hentry => ?_)
            obtain ⟨found, hfound, rfl⟩ := map_eq_ok_iff.mp hentry
            exact ih hrest hfound
          · rename_i hrest
            rw [List.count_eq_zero.mpr hrest, List.map_eq_flatMap]
            refine flatMap_flatten (hpointwise.imp fun item entry hentry => ?_)
            rw [follow_eq_descend hrest] at hentry
            rw [flatten_zero, ← Except.ok.inj hentry]
        | _ => cases h

theorem exists_array_of_mirrors {segments : List Segment} {found : Option Value} {v : Value}
    (hmem : .wildcard ∈ segments) (h : Mirrors segments found v) :
    ∃ entries, v = .array entries := by
  induction segments generalizing found with
  | nil => cases hmem
  | cons segment rest ih =>
    cases segment with
    | access a => exact ih (by simpa using hmem) h
    | wildcard =>
      rcases found with _ | w
      · cases h
      · cases w with
        | array items =>
          cases v with
          | array entries => exact ⟨entries, rfl⟩
          | _ => cases h
        | _ => cases h

end Segment

namespace Path

open Segment

theorem count_wildcard_segments (p : Path) : p.segments.count .wildcard = p.wildcardCount := by
  have hchunk : ∀ chunk : Chunk, (chunk.map Segment.access).count .wildcard = 0 := fun chunk =>
    List.count_eq_zero.mpr (by simp)
  obtain ⟨text, first, rest⟩ := p
  rw [segments, List.count_append, hchunk, Nat.zero_add]
  induction rest with
  | nil => rfl
  | cons chunk rest ih =>
    rw [List.flatMap_cons, List.count_append, List.count_cons_self, hchunk, ih, Nat.add_comm]
    rfl

theorem flatten_of_resolve {p : Path} {source v : Value} (hp : 1 ≤ p.wildcardCount)
    (hv : p.resolve source = .ok (some v)) :
    (∃ entries, v = .array entries) ∧
      v.flatten p.wildcardCount = leaves p.segments (some source) := by
  rw [← count_wildcard_segments] at hp ⊢
  have hmem : .wildcard ∈ p.segments := List.count_pos_iff.mp hp
  rw [resolve, locate_eq_evaluate, evaluate] at hv
  cases hmisfit : misfit? source p.segments with
  | some obstacle =>
    rw [hmisfit] at hv
    cases hv
  | none =>
    rw [hmisfit] at hv
    cases hfollow : follow p.segments (some source) with
    | error obstacle =>
      simp only [hfollow] at hv
      cases hv
    | ok result =>
      simp only [hfollow] at hv
      obtain rfl := Except.ok.inj hv
      exact ⟨exists_array_of_mirrors hmem (mirrors_of_follow hfollow),
        flatten_of_follow hmem hfollow⟩

theorem flatten_one (entries : List Value) : (Value.array entries).flatten 1 = entries := by
  simp only [Value.flatten, List.flatMap_singleton']

/--
A path with wildcards has flattened what it has otherwise: the same fault, or
nothing at all, or else the array of its leaves in the source. That a single
wildcard has nothing to merge makes no difference to what merging would give.
-/
theorem resolveFlat_eq_leaves {text : String} {p : Path} (hread : Path.read text = .ok p)
    (hp : 1 ≤ p.wildcardCount) :
    ∃ segments, parseSegments text = .ok segments ∧ ∀ source,
      p.resolveFlat source =
        (p.resolve source).map (Option.map fun _ => .array (leaves segments (some source))) ∧
      p.resolveFlat source =
        (p.resolve source).map (Option.map fun v => .array (v.flatten p.wildcardCount)) ∧
      (p.wildcardCount = 1 → p.resolveFlat source = p.resolve source) := by
  refine ⟨p.segments, (read_eq_ok_iff.mp hread).2, fun source => ?_⟩
  have hmerge : p.resolveFlat source =
      (p.resolve source).map (Option.map fun v => .array (v.flatten p.wildcardCount)) := by
    rw [resolveFlat]
    split
    · rename_i hless
      have hone : p.wildcardCount = 1 := by omega
      rcases hresolve : p.resolve source with fault | _ | v
      · rfl
      · rfl
      · obtain ⟨⟨entries, rfl⟩, _⟩ := flatten_of_resolve hp hresolve
        rw [hone]
        exact congrArg (fun merged => Except.ok (some (Value.array merged)))
          (flatten_one entries).symm
    · rfl
  have hleaves : p.resolveFlat source =
      (p.resolve source).map (Option.map fun _ => .array (leaves p.segments (some source))) := by
    rw [hmerge]
    rcases hresolve : p.resolve source with fault | _ | v
    · rfl
    · rfl
    · exact congrArg (fun merged => Except.ok (some (Value.array merged)))
        (flatten_of_resolve hp hresolve).2
  exact ⟨hleaves, hmerge, fun hone => if_pos (by omega)⟩

/-- Three groups: one with an array, a null and nothing in its lines, and two without lines. -/
def groups : Value :=
  .array [
    .object [("lines", .array [.object [("n", .array [.int 1])], .object [("n", .null)],
      .object []])],
    .object [],
    .object [("lines", .null)]]

theorem resolveFlat_eq_leaves_groups :
    ∃ p, Path.read "[].lines[].n" = .ok p ∧
      p.resolveFlat groups = .ok (some (.array [.array [.int 1], .null, .null])) ∧
      p.resolveFlat scrawledOrders =
        .error (.unresolved "[].lines[].n" "cannot iterate over string value") := by
  have hread : Path.read "[].lines[].n" =
      .ok ⟨"[].lines[].n", [], [[.key "lines"], [.key "n"]]⟩ := by
    decide +kernel
  obtain ⟨segments, hsegments, hflat⟩ := resolveFlat_eq_leaves hread (by decide)
  have hparse : parseSegments "[].lines[].n" =
      .ok [.wildcard, .access (.key "lines"), .wildcard, .access (.key "n")] := by
    decide +kernel
  obtain rfl := Except.ok.inj (hparse.symm.trans hsegments)
  exact ⟨_, hread, (hflat groups).1, (hflat scrawledOrders).1⟩

end Path

end Reshape
