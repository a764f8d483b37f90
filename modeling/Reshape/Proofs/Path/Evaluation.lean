import Reshape.Path.Resolve
import Reshape.Proofs.Path.Segments

/-! # The meaning of paths

Segments are followed one after the other, each from the value that the one
before it has led to. Resolving a path chunk by chunk does the same: it has the
same results, it fails with the leftmost obstacle, and a result has one entry for
each element of a collection.
-/

namespace Reshape

namespace Access

def container : Access → Kind
  | key _ => .object
  | index _ => .array
  | argument _ => .array

/-- What an access leads to, if there is a value of its kind that has it. -/
def select (a : Access) (found : Option Value) : Option Value :=
  match a, found with
  | key name, some (.object members) => members.lookup name
  | index n, some (.array items) => items[n]?
  | argument n, some (.array items) => items[n]?
  | _, _ => none

theorem select_eq_bind (a : Access) (found : Option Value) :
    a.select found = found.bind a.follow? := by
  cases found with
  | none => cases a <;> rfl
  | some v => cases a <;> cases v <;> rfl

end Access

namespace Segment

/-- What segments lead to from a value that may be absent, or the obstacle that ends it. -/
def follow : List Segment → Option Value → Except Obstacle (Option Value)
  | [], found => .ok found
  | .access a :: rest, found => follow rest (a.select found)
  | .wildcard :: rest, found =>
    match found with
    | none | some .null => .ok none
    | some (.array items) =>
      (items.mapM fun item => (follow rest (some item)).map (Option.getD · .null)).map
        fun entries => some (.array entries)
    | some other => .error (.notIterable other.kind)

/-- The obstacle for the very first segment, which needs a value of its kind. -/
def misfit? (source : Value) : List Segment → Option Obstacle
  | .access a :: _ => if source.kind = a.container then none else some (.unreadable a source.kind)
  | _ => none

/-- What segments lead to from a source, or the obstacle that ends it. -/
def evaluate (segments : List Segment) (source : Value) : Except Obstacle (Option Value) :=
  match misfit? source segments with
  | some obstacle => .error obstacle
  | none => follow segments (some source)

def laterObstacles : List Segment → Option Value → List Obstacle
  | [], _ => []
  | .access a :: rest, found => laterObstacles rest (a.select found)
  | .wildcard :: rest, found =>
    match found with
    | none | some .null => []
    | some (.array items) => items.flatMap fun item => laterObstacles rest (some item)
    | some other => [.notIterable other.kind]

/-- All obstacles that segments meet, from left to right. -/
def obstacles (segments : List Segment) (source : Value) : List Obstacle :=
  (misfit? source segments).toList ++ laterObstacles segments (some source)

/--
A value has an entry for each element of the collection before the first
wildcard. Below further wildcards an entry is null, or has entries itself.
-/
def Mirrors : List Segment → Option Value → Value → Prop
  | [], _, _ => True
  | .access a :: rest, found, v => Mirrors rest (a.select found) v
  | .wildcard :: rest, some (.array items), .array entries =>
    List.Forall₂ (fun item entry => entry = .null ∨ Mirrors rest (some item) entry) items entries
  | .wildcard :: _, _, _ => False

theorem follow_wildcard (rest : List Segment) (found : Option Value) :
    follow (.wildcard :: rest) found =
      Chunk.overElements found fun item => follow rest (some item) := by
  rcases found with _ | v
  · rfl
  · cases v <;> rfl

theorem follow_chunk (chunk : Chunk) (rest : List Segment) (found : Option Value) :
    follow (chunk.map .access ++ rest) found = follow rest (found.bind chunk.resolveTolerant) := by
  induction chunk generalizing found with
  | nil => cases found <;> rfl
  | cons a chunk ih =>
    rw [List.map_cons, List.cons_append, follow, ih, Access.select_eq_bind, Option.bind_assoc]
    rfl

/-- Following chunks from each element of a collection is following the segments. -/
theorem follow_chunks (chunk : Chunk) (rest : List Chunk) (found : Option Value) :
    follow ((chunk :: rest).flatMap fun chunk => .wildcard :: chunk.map .access) found =
      Chunk.iterate chunk rest found := by
  induction rest generalizing chunk found with
  | nil =>
    simp only [List.flatMap_singleton, follow_wildcard, Chunk.iterate]
    congr 1
    funext item
    simpa [follow] using follow_chunk chunk [] (some item)
  | cons next rest ih =>
    rw [List.flatMap_cons, List.cons_append, follow_wildcard, Chunk.iterate]
    congr 1
    funext item
    rw [follow_chunk, ih]
    rfl

theorem resolveStrict_eq (chunk : Chunk) (rest : List Chunk) (source : Value) :
    chunk.resolveStrict source =
      match misfit? source (Path.segments ⟨"", chunk, rest⟩) with
      | some obstacle => .error obstacle
      | none => .ok (chunk.resolveTolerant source) := by
  cases chunk with
  | nil => cases rest <;> rfl
  | cons a chunk => cases a <;> cases source <;> rfl

theorem locate_eq_evaluate (p : Path) (source : Value) :
    p.locate source = evaluate p.segments source := by
  obtain ⟨text, first, rest⟩ := p
  have hfollow : follow (Path.segments ⟨text, first, rest⟩) (some source) =
      follow (rest.flatMap fun chunk => .wildcard :: chunk.map .access)
        (first.resolveTolerant source) :=
    follow_chunk first _ (some source)
  rw [evaluate, hfollow, Path.locate, resolveStrict_eq first rest]
  have hmisfit : misfit? source (Path.segments ⟨text, first, rest⟩) =
      misfit? source (Path.segments ⟨"", first, rest⟩) := rfl
  rw [hmisfit]
  cases misfit? source (Path.segments ⟨"", first, rest⟩) with
  | some obstacle => cases rest <;> rfl
  | none =>
    cases rest with
    | nil => rfl
    | cons chunk rest => exact (follow_chunks chunk rest _).symm

/-- Following segments ends at the leftmost obstacle. -/
theorem failure?_follow (segments : List Segment) (found : Option Value) :
    failure? (follow segments found) = (laterObstacles segments found).head? := by
  induction segments generalizing found with
  | nil => rfl
  | cons segment rest ih =>
    cases segment with
    | access a => exact ih (a.select found)
    | wildcard =>
      rcases found with _ | v
      · rfl
      · cases v with
        | array items =>
          simp only [follow, laterObstacles, failure?_map, failure?_mapM, List.head?_flatMap, ih]
        | _ => rfl

theorem failure?_evaluate (segments : List Segment) (source : Value) :
    failure? (evaluate segments source) = (obstacles segments source).head? := by
  rw [evaluate, obstacles]
  cases misfit? source segments with
  | none => exact failure?_follow segments (some source)
  | some obstacle => rfl

theorem mirrors_of_follow {segments : List Segment} {found : Option Value} {v : Value}
    (h : follow segments found = .ok (some v)) : Mirrors segments found v := by
  induction segments generalizing found v with
  | nil => trivial
  | cons segment rest ih =>
    cases segment with
    | access a => exact ih h
    | wildcard =>
      rcases found with _ | w
      · cases h
      · cases w with
        | array items =>
          obtain ⟨entries, hentries, heq⟩ := map_eq_ok_iff.mp h
          obtain rfl := Option.some.inj heq
          refine (mapM_eq_ok_iff.mp hentries).imp fun item entry hentry => ?_
          obtain ⟨result, hresult, rfl⟩ := map_eq_ok_iff.mp hentry
          cases result with
          | none => exact .inl rfl
          | some v => exact .inr (ih hresult)
        | _ => cases h

theorem mirrors_of_evaluate {segments : List Segment} {source v : Value}
    (h : evaluate segments source = .ok (some v)) : Mirrors segments (some source) v := by
  rw [evaluate] at h
  split at h
  · cases h
  · exact mirrors_of_follow h

end Segment

namespace Path

open Segment

/--
A path resolves to what its segments lead to from a source, each applied to the
value before it. It fails if these meet an obstacle, with the leftmost one, and a
value that it has is an array level for each wildcard, one entry per element.
-/
theorem resolve_eq_evaluate {text : String} {p : Path} (hp : Path.read text = .ok p) :
    ∃ segments, parseSegments text = .ok segments ∧ ∀ source,
      p.resolve source =
        (evaluate segments source).mapError (fun first => .unresolved text first.message) ∧
      (∀ fault, p.resolve source = .error fault ↔
        ∃ first, (obstacles segments source).head? = some first ∧
          fault = .unresolved text first.message) ∧
      ∀ v, p.resolve source = .ok (some v) → Mirrors segments (some source) v := by
  obtain ⟨rfl, hsegments⟩ := read_eq_ok_iff.mp hp
  refine ⟨p.segments, hsegments, fun source => ?_⟩
  have hresolve : p.resolve source = (evaluate p.segments source).mapError p.unresolved := by
    rw [resolve, locate_eq_evaluate]
  refine ⟨hresolve, fun fault => ?_, fun v hv => ?_⟩
  · rw [hresolve, ← failure?_evaluate]
    cases evaluate p.segments source with
    | ok found => simp [Except.mapError]
    | error first => simp [Except.mapError, unresolved, eq_comm]
  · rw [hresolve] at hv
    refine mirrors_of_evaluate ?_
    cases hfound : evaluate p.segments source with
    | ok found =>
      rw [hfound] at hv
      exact congrArg Except.ok (Except.ok.inj hv)
    | error first =>
      rw [hfound] at hv
      cases hv

def orders : Value :=
  .array [.object [("lines", .array [.object [("n", .int 1)], .object []])], .object []]

def scrawledOrders : Value :=
  .array [.object [("lines", .array [.int 1])], .object [("lines", .string "two")]]

theorem resolve_eq_evaluate_orders :
    ∃ p, Path.read "[].lines[].n" = .ok p ∧
      p.resolve orders = .ok (some (.array [.array [.int 1, .null], .null])) ∧
      p.resolve scrawledOrders =
        .error (.unresolved "[].lines[].n" "cannot iterate over string value") := by
  obtain ⟨p, hp⟩ : ∃ p, Path.read "[].lines[].n" = .ok p :=
    failure?_eq_none_iff.mp (by decide +kernel)
  obtain ⟨segments, hsegments, hresolve⟩ := resolve_eq_evaluate hp
  have hread : parseSegments "[].lines[].n" =
      .ok [.wildcard, .access (.key "lines"), .wildcard, .access (.key "n")] := by
    decide +kernel
  obtain rfl := Except.ok.inj (hread.symm.trans hsegments)
  refine ⟨p, hp, (hresolve orders).1, ((hresolve scrawledOrders).2.1 _).mpr ⟨_, rfl, by decide⟩⟩

end Path

end Reshape
