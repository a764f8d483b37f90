import Reshape.Proofs.Path.Grammar
import Reshape.Proofs.Path.Leaves

/-! # Paths behind paths

A path goes on with another one behind a dot. What the first one leads to has
entries on the level of its last wildcard. The other one is followed from each of
these, where its first access may meet a value of any kind, and what it leads to
takes the place of the entry.
-/

namespace Reshape

/-- Replace the elements below a number of array levels. A null level stays null. -/
def Value.replaceAt (f : Value → Value) : Nat → Value → Value
  | depth + 1, .array items => .array (items.map (replaceAt f depth))
  | _ + 1, .null => .null
  | _, v => f v

theorem Value.replaceAt_zero (f : Value → Value) (v : Value) : v.replaceAt f 0 = f v := by
  cases v <;> rfl

theorem forall₂_image_iff {α β γ : Type} {R : α → β → Prop} {P : β → Prop} {g : β → γ}
    {as : List α} {cs : List γ} :
    List.Forall₂ (fun a c => ∃ b, R a b ∧ P b ∧ g b = c) as cs ↔
      ∃ bs, List.Forall₂ R as bs ∧ (∀ b ∈ bs, P b) ∧ bs.map g = cs := by
  constructor
  · intro h
    induction h with
    | nil => exact ⟨[], .nil, by simp, rfl⟩
    | cons hc _ ih =>
      obtain ⟨b, hb, hp, rfl⟩ := hc
      obtain ⟨bs, hbs, hps, rfl⟩ := ih
      exact ⟨b :: bs, .cons hb hbs, List.forall_mem_cons.mpr ⟨hp, hps⟩, rfl⟩
  · rintro ⟨bs, h, hps, rfl⟩
    induction h with
    | nil => exact .nil
    | cons hb _ ih =>
      obtain ⟨hp, hps⟩ := List.forall_mem_cons.mp hps
      exact .cons ⟨_, hb, hp, rfl⟩ (ih hps)

namespace Segment

theorem follow_none (segments : List Segment) : follow segments none = .ok none := by
  induction segments with
  | nil => rfl
  | cons segment rest ih =>
    cases segment with
    | access a => cases a <;> exact ih
    | wildcard => rfl

def Followable (segments : List Segment) (v : Value) : Prop :=
  ∃ found, follow segments (some v) = .ok found

/-- What segments lead to from an entry, and null if that is nothing. -/
def entry (segments : List Segment) (v : Value) : Value :=
  match follow segments (some v) with
  | .ok found => found.getD .null
  | .error _ => .null

theorem follow_null (segments : List Segment) :
    Followable segments .null ∧ entry segments .null = .null := by
  have hfound : ∃ found, follow segments (some .null) = .ok found ∧ found.getD .null = .null := by
    cases segments with
    | nil => exact ⟨some .null, rfl, rfl⟩
    | cons segment rest =>
      refine ⟨none, ?_, rfl⟩
      cases segment with
      | access a => cases a <;> exact follow_none rest
      | wildcard => rfl
  obtain ⟨found, hfound, hnull⟩ := hfound
  refine ⟨⟨found, hfound⟩, ?_⟩
  rw [entry, hfound]
  exact hnull

/-- What becomes of a value when segments are followed from the entries below array levels. -/
def Extends (segments : List Segment) : Nat → Option Value → Option Value → Prop
  | _, none, result => result = none
  | 0, some v, result => follow segments (some v) = .ok result
  | depth + 1, some v, result =>
    (∀ leaf ∈ v.flatten (depth + 1), Followable segments leaf) ∧
      result = some (v.replaceAt (entry segments) (depth + 1))

variable {left right : List Segment} {found result : Option Value} {depth : Nat}

theorem exists_extends_iff :
    (∃ result, Extends right depth found result) ↔
      ∀ v ∈ found, ∀ leaf ∈ v.flatten depth, Followable right leaf := by
  rcases found with _ | v
  · simp [Extends]
  · cases depth with
    | zero => simp [Extends, flatten_zero, Followable]
    | succ depth => simp [Extends]

theorem extends_getD_iff {v : Value} :
    (∃ result, Extends right depth found result ∧ result.getD .null = v) ↔
      (∀ leaf ∈ (found.getD .null).flatten depth, Followable right leaf) ∧
        (found.getD .null).replaceAt (entry right) depth = v := by
  obtain ⟨hnull, hentry⟩ := follow_null right
  rcases found with _ | w
  · cases depth with
    | zero => simp [Extends, flatten_zero, Value.replaceAt_zero, hnull, hentry]
    | succ depth => simp [Extends, Value.flatten, Value.replaceAt]
  · cases depth with
    | zero =>
      simp only [Extends, Option.getD_some, flatten_zero, List.mem_singleton, forall_eq,
        Value.replaceAt_zero, Followable, entry]
      cases follow right (some w) <;> simp
    | succ depth => simp [Extends]

theorem follow_array_eq_ok_iff {rest : List Segment} {items : List Value} :
    follow (.wildcard :: rest) (some (.array items)) = .ok result ↔
      ∃ entries, List.Forall₂
        (fun item v => ∃ found, follow rest (some item) = .ok found ∧ found.getD .null = v)
        items entries ∧ some (.array entries) = result := by
  have hitem : ∀ item v, (follow rest (some item)).map (Option.getD · .null) = .ok v ↔
      ∃ found, follow rest (some item) = .ok found ∧ found.getD .null = v :=
    fun item v => map_eq_ok_iff
  simp only [← hitem, ← mapM_eq_ok_iff]
  exact map_eq_ok_iff

/-- Segments behind others are followed from the entries that these lead to. -/
theorem follow_append_eq_ok_iff :
    follow (left ++ right) found = .ok result ↔
      ∃ mid, follow left found = .ok mid ∧ Extends right (left.count .wildcard) mid result := by
  induction left generalizing found result with
  | nil =>
    simp only [List.nil_append, List.count_nil, follow, Except.ok.injEq, exists_eq_left']
    rcases found with _ | v
    · simp [follow_none, Extends, eq_comm]
    · rfl
  | cons segment left ih =>
    cases segment with
    | access a =>
      rw [List.cons_append, List.count_cons_of_ne (by simp)]
      exact ih
    | wildcard =>
      rw [List.cons_append, List.count_cons_self]
      rcases found with _ | v
      · simp [follow, Extends, eq_comm]
      cases v with
      | null => simp [follow, Extends, eq_comm]
      | array items =>
        -- An item that the first segments lead nowhere from counts as null for the others.
        have hentry : ∀ item v,
            (∃ found, follow (left ++ right) (some item) = .ok found ∧ found.getD .null = v) ↔
              ∃ w, (∃ mid, follow left (some item) = .ok mid ∧ mid.getD .null = w) ∧
                (∀ leaf ∈ w.flatten (left.count .wildcard), Followable right leaf) ∧
                  w.replaceAt (entry right) (left.count .wildcard) = v := by
          intro item v
          simp only [ih]
          constructor
          · rintro ⟨found, ⟨mid, hmid, hfound⟩, hv⟩
            exact ⟨_, ⟨mid, hmid, rfl⟩, extends_getD_iff.mp ⟨found, hfound, hv⟩⟩
          · rintro ⟨_, ⟨mid, hmid, rfl⟩, hw⟩
            obtain ⟨found, hfound, hv⟩ := extends_getD_iff.mpr hw
            exact ⟨found, ⟨mid, hmid, hfound⟩, hv⟩
        simp only [follow_array_eq_ok_iff, hentry, forall₂_image_iff]
        constructor
        · rintro ⟨_, ⟨mids, hmids, hleaves, rfl⟩, rfl⟩
          refine ⟨_, ⟨mids, hmids, rfl⟩, fun leaf hleaf => ?_, rfl⟩
          obtain ⟨w, hw, hleaf⟩ := List.mem_flatMap.mp hleaf
          exact hleaves w hw leaf hleaf
        · rintro ⟨_, ⟨mids, hmids, rfl⟩, hleaves, rfl⟩
          refine ⟨_, ⟨mids, hmids, fun w hw leaf hleaf => ?_, rfl⟩, rfl⟩
          exact hleaves leaf (List.mem_flatMap.mpr ⟨w, hw, hleaf⟩)
      | _ => simp [follow]

theorem exists_kind_of_mem_laterObstacles {segments : List Segment} {o : Obstacle}
    (h : o ∈ laterObstacles segments found) : ∃ kind, o = .notIterable kind := by
  induction segments generalizing found with
  | nil => cases h
  | cons segment rest ih =>
    cases segment with
    | access a => exact ih h
    | wildcard =>
      rcases found with _ | v
      · cases h
      cases v with
      | null => cases h
      | array items =>
        obtain ⟨item, _, hitem⟩ := List.mem_flatMap.mp h
        exact ih hitem
      | _ => exact ⟨_, List.mem_singleton.mp h⟩

theorem follow_of_misfit? {segments : List Segment} {source : Value} {o : Obstacle}
    (h : misfit? source segments = some o) :
    follow segments (some source) = .ok none ∧ ∃ a kind, o = .unreadable a kind := by
  cases segments with
  | nil => cases h
  | cons segment rest =>
    cases segment with
    | wildcard => cases h
    | access a =>
      rw [misfit?] at h
      split at h
      · cases h
      · rename_i hkind
        refine ⟨?_, a, source.kind, (Option.some.inj h).symm⟩
        have hselect : a.select (some source) = none := by
          cases a <;> cases source <;> first | rfl | exact absurd rfl hkind
        rw [follow, hselect, follow_none]

end Segment

namespace Path

open Segment

/-- The value at a path, where a first access to a value of another kind finds nothing. -/
def resolveTolerant (p : Path) (source : Value) : Except MappingFault (Option Value) :=
  match p.locate source with
  | .error (.unreadable _ _) => .ok none
  | located => located.mapError p.unresolved

def entry (p : Path) (v : Value) : Value :=
  match p.resolveTolerant v with
  | .ok found => found.getD .null
  | .error _ => .null

theorem resolveTolerant_eq (p : Path) (source : Value) :
    p.resolveTolerant source = (follow p.segments (some source)).mapError p.unresolved := by
  rw [resolveTolerant, locate_eq_evaluate, evaluate]
  cases hmisfit : misfit? source p.segments with
  | some o =>
    obtain ⟨hfollow, a, kind, rfl⟩ := follow_of_misfit? hmisfit
    rw [hfollow]
    rfl
  | none =>
    cases hfollow : follow p.segments (some source) with
    | ok found => rfl
    | error o =>
      have hhead := failure?_follow p.segments (some source)
      rw [hfollow] at hhead
      obtain ⟨kind, rfl⟩ := exists_kind_of_mem_laterObstacles (List.mem_of_head? hhead.symm)
      rfl

theorem resolveTolerant_eq_ok_iff {p : Path} {source : Value} {found : Option Value} :
    p.resolveTolerant source = .ok found ↔ follow p.segments (some source) = .ok found := by
  rw [resolveTolerant_eq, mapError_eq_ok_iff]

theorem entry_eq (p : Path) : p.entry = Segment.entry p.segments := by
  funext v
  rw [entry, Segment.entry, resolveTolerant_eq]
  cases follow p.segments (some v) <;> rfl

/-- Only its first segment can keep a path from being followed tolerantly. -/
theorem resolve_eq_ok_iff {p : Path} {source : Value} {found : Option Value} :
    p.resolve source = .ok found ↔
      misfit? source p.segments = none ∧ follow p.segments (some source) = .ok found := by
  rw [resolve, locate_eq_evaluate, mapError_eq_ok_iff, evaluate]
  cases misfit? source p.segments <;> simp

theorem Continues.append {cs ds : List Char} {items more : List Item} (h : Continues cs items)
    (hmore : Continues ds more) : Continues (cs ++ ds) (items ++ more) := by
  induction h with
  | done => exact hmore
  | dotted hwf hsel _ ih =>
    rw [List.cons_append, List.append_assoc]
    exact .dotted hwf hsel ih
  | attached hwf _ ih =>
    rw [List.append_assoc]
    exact .attached hwf ih

theorem Item.segment_of_isSelector {item : Item} (h : item.IsSelector) :
    ∃ n, item.segment = .access (.argument n) := by
  cases item with
  | bracket digits => exact h.elim
  | identifier chars => exact ⟨_, if_pos h⟩

theorem parseSegments_join {left right : String} {segments more : List Segment}
    (hleft : parseSegments left = .ok segments) (hright : parseSegments right = .ok more)
    (harg : ∀ n, more.head? ≠ some (.access (.argument n))) :
    parseSegments (left ++ "." ++ right) = .ok (segments ++ more) ∧ segments ≠ [] := by
  obtain ⟨items, hitems, rfl⟩ := parseSegments_eq_ok_iff.mp hleft
  obtain ⟨others, hothers, rfl⟩ := parseSegments_eq_ok_iff.mp hright
  generalize hcs : left.toList = cs at hitems
  generalize hds : right.toList = ds at hothers
  obtain ⟨hwf, hrest⟩ := hitems
  obtain @⟨item, rest, others, hwf', hrest'⟩ := hothers
  have hsel : ¬ item.IsSelector := by
    intro h
    obtain ⟨n, hn⟩ := Item.segment_of_isSelector h
    exact harg n (congrArg some hn)
  refine ⟨parseSegments_eq_ok_iff.mpr ⟨_, ?_, List.map_append⟩, List.cons_ne_nil _ _⟩
  rw [String.toList_append, String.toList_append, hcs, hds, List.append_assoc, List.append_assoc]
  exact .intro hwf (hrest.append (.dotted hwf' hsel hrest'))

theorem misfit?_append {segments : List Segment} (h : segments ≠ []) (more : List Segment)
    (source : Value) : misfit? source (segments ++ more) = misfit? source segments := by
  obtain ⟨segment, rest, rfl⟩ := List.exists_cons_of_ne_nil h
  cases segment <;> rfl

/--
With a dot between them, two paths are a path. It has a result just if the first
one has and the other one can be followed, as a tolerant one, from all entries of
that. Nothing stays nothing. Without a wildcard in the first path, the result is
the one of the other path; otherwise each entry of the last array level is
replaced by what the other path leads to from there.
-/
theorem concatenation_composes {left right : String} {p q : Path} (hp : Path.read left = .ok p)
    (hq : Path.read right = .ok q) (harg : ∀ n, q.segments.head? ≠ some (.access (.argument n))) :
    ∃ joined, Path.read (left ++ "." ++ right) = .ok joined ∧ ∀ source,
      ((∃ result, joined.resolve source = .ok result) ↔
        ∃ found, p.resolve source = .ok found ∧ ∀ v ∈ found,
          ∀ leaf ∈ v.flatten p.wildcardCount, ∃ r, q.resolveTolerant leaf = .ok r) ∧
      ∀ result, joined.resolve source = .ok result →
        (p.resolve source = .ok none → result = none) ∧
        ∀ v, p.resolve source = .ok (some v) →
          (p.wildcardCount = 0 → q.resolveTolerant v = .ok result) ∧
          (1 ≤ p.wildcardCount → result = some (v.replaceAt q.entry p.wildcardCount)) := by
  obtain ⟨rfl, hsegments⟩ := read_eq_ok_iff.mp hp
  obtain ⟨rfl, hmore⟩ := read_eq_ok_iff.mp hq
  obtain ⟨hparse, hne⟩ := parseSegments_join hsegments hmore harg
  obtain ⟨joined, hjoined, hsplit⟩ := exists_read_of_parseSegments hparse
  have hresolve : ∀ source result, joined.resolve source = .ok result ↔
      ∃ found, p.resolve source = .ok found ∧
        Extends q.segments p.wildcardCount found result := by
    intro source result
    simp only [resolve_eq_ok_iff, hsplit, misfit?_append hne, follow_append_eq_ok_iff,
      count_wildcard_segments, and_assoc, exists_and_left]
  refine ⟨joined, hjoined, fun source => ⟨?_, fun result hresult => ?_⟩⟩
  · simp only [hresolve, resolveTolerant_eq_ok_iff]
    rw [exists_comm]
    simp only [exists_and_left, exists_extends_iff]
    rfl
  · obtain ⟨found, hfound, hextends⟩ := (hresolve source result).mp hresult
    rw [hfound]
    refine ⟨fun hnone => ?_, fun v hv => ?_⟩
    · obtain rfl := Except.ok.inj hnone
      rwa [Extends] at hextends
    · obtain rfl := Except.ok.inj hv
      rw [resolveTolerant_eq_ok_iff, entry_eq]
      generalize p.wildcardCount = depth at hextends
      cases depth with
      | zero => exact ⟨fun _ => hextends, fun h => absurd h (by decide)⟩
      | succ depth => exact ⟨fun h => absurd h (by simp), fun _ => hextends.2⟩

/-- Three parcels: one with sizes, one with a number in their place, and one without. -/
def parcels : Value :=
  .array [
    .object [("size", .object [("side", .array [.int 3, .int 4])])],
    .object [("size", .int 5)],
    .object []]

theorem concatenation_composes_parcels :
    ∃ p q joined, Path.read "[].size" = .ok p ∧ Path.read "side[0]" = .ok q ∧
      Path.read "[].size.side[0]" = .ok joined ∧
      p.resolve parcels =
        .ok (some (.array [.object [("side", .array [.int 3, .int 4])], .int 5, .null])) ∧
      q.resolve (.int 5) =
        .error (.unresolved "side[0]" "cannot read 'side' of number value") ∧
      joined.resolve parcels = .ok (some (.array [.int 3, .null, .null])) := by
  have hp : Path.read "[].size" = .ok ⟨"[].size", [], [[.key "size"]]⟩ := by decide +kernel
  have hq : Path.read "side[0]" = .ok ⟨"side[0]", [.key "side", .index 0], []⟩ := by
    decide +kernel
  obtain ⟨joined, hjoined, hcompose⟩ := concatenation_composes hp hq nofun
  obtain ⟨hok, hresult⟩ := hcompose parcels
  have hfound : Path.resolve ⟨"[].size", [], [[.key "size"]]⟩ parcels =
      .ok (some (.array [.object [("side", .array [.int 3, .int 4])], .int 5, .null])) := rfl
  have hleaves : ∀ leaf ∈ [.object [("side", .array [.int 3, .int 4])], .int 5, .null],
      ∃ r, Path.resolveTolerant ⟨"side[0]", [.key "side", .index 0], []⟩ leaf = .ok r := by
    simp only [List.forall_mem_cons]
    exact ⟨⟨_, rfl⟩, ⟨_, rfl⟩, ⟨_, rfl⟩, nofun⟩
  obtain ⟨result, hr⟩ := hok.mpr ⟨_, hfound, fun v hv => Option.some.inj hv ▸ hleaves⟩
  refine ⟨_, _, joined, hp, hq, hjoined, hfound, rfl, ?_⟩
  rw [hr, ((hresult result hr).2 _ hfound).2 (by decide)]
  rfl

end Path

end Reshape
