import Reshape.Proofs.Path.Grammar

/-! # Writing paths

Segments are written one after the other with dots between them, where a dot may
be left out in front of brackets. Whatever is written in this way is read as the
segments again, so a path is known by its text with all dots.
-/

namespace Reshape

namespace Segment

open Reshape.Path

def IsBracket : Segment → Prop
  | .access (.index _) => True
  | .wildcard => True
  | _ => False

def IsArgument (segment : Segment) : Prop := ∃ n, segment = .access (.argument n)

/-- A key is an identifier, but none that selects an argument, and a number has 64 bits. -/
def Writable : Segment → Prop
  | .access (.key name) => IsIdentifier name.toList ∧ ¬ (Item.identifier name.toList).IsSelector
  | .access (.index n) => n < 2 ^ 64
  | .access (.argument n) => n < 2 ^ 64
  | .wildcard => True

/-- Segments that can be the segments of a path. -/
structure Expressible (segments : List Segment) : Prop where
  ne_nil : segments ≠ []
  writable : ∀ segment ∈ segments, segment.Writable
  argument : ∀ segment ∈ segments.tail, ¬ segment.IsArgument

/-- What may be written for the segments behind another one. -/
inductive WrittenBehind : List Segment → List Char → Prop where
  | done : WrittenBehind [] []
  | dotted {segment : Segment} {rest : List Segment} {cs : List Char} :
    WrittenBehind rest cs → WrittenBehind (segment :: rest) ('.' :: (segment.text.toList ++ cs))
  | attached {segment : Segment} {rest : List Segment} {cs : List Char} :
    segment.IsBracket → WrittenBehind rest cs →
      WrittenBehind (segment :: rest) (segment.text.toList ++ cs)

/-- What may be written for segments, with a dot or without one in front of brackets. -/
inductive Written : List Segment → List Char → Prop where
  | intro {segment : Segment} {rest : List Segment} {cs : List Char} :
    WrittenBehind rest cs → Written (segment :: rest) (segment.text.toList ++ cs)

/-- Segments with a dot between any two of them. -/
def render (segments : List Segment) : String := ".".intercalate (segments.map text)

def item : Segment → Item
  | .access (.key name) => .identifier name.toList
  | .access (.index n) => .bracket (Nat.toDigits 10 n)
  | .access (.argument n) => .identifier ('$' :: Nat.toDigits 10 n)
  | .wildcard => .bracket []

theorem isNumeral_toDigits (n : Nat) : IsNumeral (Nat.toDigits 10 n) :=
  ⟨Nat.toDigits_ne_nil, fun _ hc => Nat.isDigit_of_mem_toDigits (by decide) (by decide) hc⟩

theorem numeralValue_toDigits (n : Nat) : numeralValue (Nat.toDigits 10 n) = n := by
  rw [← digitsValue_eq]
  exact Nat.ofDigitChars_ten_toDigits

theorem chars_item (segment : Segment) : segment.item.chars = segment.text.toList := by
  cases segment with
  | wildcard => rfl
  | access a =>
    cases a with
    | key name => rfl
    | index n => simp [item, Item.chars, text, Access.text, toString]
    | argument n => simp [item, Item.chars, text, Access.text, toString]

theorem isSelector_argument (n : Nat) :
    (Item.identifier ('$' :: Nat.toDigits 10 n)).IsSelector :=
  ⟨rfl, isNumeral_toDigits n⟩

theorem Writable.wellFormed_item {segment : Segment} (h : segment.Writable) :
    segment.item.WellFormed := by
  cases segment with
  | wildcard => exact fun hne => absurd rfl hne
  | access a =>
    cases a with
    | key name => exact ⟨h.1, fun hsel => absurd hsel h.2⟩
    | index n => exact fun _ => ⟨isNumeral_toDigits n, (numeralValue_toDigits n).trans_lt h⟩
    | argument n =>
      refine ⟨⟨by simp [IsIdentifierStart], fun c hc => ?_⟩, fun _ => ?_⟩
      · have hdigit := (isNumeral_toDigits n).2 c hc
        simp [IsIdentifierRest, Char.isAlphanum, hdigit]
      · exact (numeralValue_toDigits n).trans_lt h

theorem Writable.segment_item {segment : Segment} (h : segment.Writable) :
    segment.item.segment = segment := by
  cases segment with
  | wildcard => rfl
  | access a =>
    cases a with
    | key name => rw [item, Item.segment, if_neg h.2, String.ofList_toList]
    | index n =>
      obtain ⟨c, cs, hdigits⟩ := List.exists_cons_of_ne_nil (isNumeral_toDigits n).1
      have hvalue := numeralValue_toDigits n
      rw [hdigits] at hvalue
      rw [item, hdigits, Item.segment, hvalue]
      exact List.cons_ne_nil c cs
    | argument n =>
      rw [item, Item.segment, if_pos (isSelector_argument n), List.tail_cons,
        numeralValue_toDigits]

theorem Writable.isArgument {segment : Segment} (h : segment.Writable)
    (hsel : segment.item.IsSelector) : segment.IsArgument := by
  cases segment with
  | wildcard => exact hsel.elim
  | access a =>
    cases a with
    | key name => exact absurd hsel h.2
    | index n => exact hsel.elim
    | argument n => exact ⟨n, rfl⟩

theorem WrittenBehind.continues {segments : List Segment} {cs : List Char}
    (h : WrittenBehind segments cs) (hwritable : ∀ segment ∈ segments, segment.Writable)
    (hargument : ∀ segment ∈ segments, ¬ segment.IsArgument) :
    Continues cs (segments.map item) := by
  induction h with
  | done => exact .done
  | @dotted segment rest cs _ ih =>
    obtain ⟨hsegment, hwritable⟩ := List.forall_mem_cons.mp hwritable
    obtain ⟨hnone, hargument⟩ := List.forall_mem_cons.mp hargument
    rw [← chars_item]
    exact .dotted hsegment.wellFormed_item (mt hsegment.isArgument hnone)
      (ih hwritable hargument)
  | @attached segment rest cs hbracket _ ih =>
    obtain ⟨hsegment, hwritable⟩ := List.forall_mem_cons.mp hwritable
    obtain ⟨_, hargument⟩ := List.forall_mem_cons.mp hargument
    have hrest := ih hwritable hargument
    have hwf := hsegment.wellFormed_item
    rw [← chars_item]
    cases segment with
    | wildcard => exact .attached hwf hrest
    | access a =>
      cases a with
      | index n => exact .attached hwf hrest
      | _ => exact hbracket.elim

/-- Segments that are written in any way are read. -/
theorem Expressible.parseSegments_of_written {segments : List Segment} (h : Expressible segments)
    {text : String} (htext : Written segments text.toList) : parseSegments text = .ok segments := by
  refine parseSegments_eq_ok_iff.mpr ⟨segments.map item, ?_, ?_⟩
  · generalize text.toList = cs at htext
    obtain ⟨hrest⟩ := htext
    obtain ⟨hsegment, hwritable⟩ := List.forall_mem_cons.mp h.writable
    rw [← chars_item]
    exact .intro hsegment.wellFormed_item (hrest.continues hwritable h.argument)
  · rw [List.map_map]
    have hsegment : ∀ segment ∈ segments, segment.item.segment = segment :=
      fun segment hmem => (h.writable segment hmem).segment_item
    exact (List.map_congr_left hsegment).trans (List.map_id' segments)

theorem writtenBehind_dotted (segments : List Segment) :
    WrittenBehind segments (segments.flatMap fun segment => '.' :: segment.text.toList) := by
  induction segments with
  | nil => exact .done
  | cons segment rest ih => exact .dotted ih

theorem toList_render (segment : Segment) (rest : List Segment) :
    (render (segment :: rest)).toList =
      segment.text.toList ++ rest.flatMap fun segment => '.' :: segment.text.toList := by
  rw [render, String.toList_intercalate, List.map_map]
  induction rest generalizing segment with
  | nil => simp
  | cons next rest ih =>
    have hnext := ih next
    simp only [List.map_cons] at hnext ⊢
    rw [List.intercalate_cons_cons, hnext]
    simp

theorem written_render {segments : List Segment} (h : segments ≠ []) :
    Written segments (render segments).toList := by
  obtain ⟨segment, rest, rfl⟩ := List.exists_cons_of_ne_nil h
  rw [toList_render]
  exact .intro (writtenBehind_dotted rest)

end Segment

namespace Path

open Segment

theorem Item.writable_segment {item : Item} (h : item.WellFormed) : item.segment.Writable := by
  cases item with
  | identifier chars =>
    rw [Item.segment]
    split
    · rename_i hsel
      exact h.2 hsel
    · rename_i hsel
      rw [Writable, String.toList_ofList]
      exact ⟨h.1, hsel⟩
  | bracket digits =>
    cases digits with
    | nil => trivial
    | cons c cs => exact (h (List.cons_ne_nil c cs)).2

theorem Item.isSelector_of_isArgument {item : Item} (h : item.segment.IsArgument) :
    item.IsSelector := by
  obtain ⟨n, hn⟩ := h
  cases item with
  | identifier chars =>
    by_contra hsel
    rw [Item.segment, if_neg hsel] at hn
    cases hn
  | bracket digits => cases digits <;> cases hn

theorem Continues.forall_item {cs : List Char} {items : List Item} (h : Continues cs items) :
    ∀ item ∈ items, item.WellFormed ∧ ¬ item.IsSelector := by
  induction h with
  | done => simp
  | dotted hwf hsel _ ih => exact List.forall_mem_cons.mpr ⟨⟨hwf, hsel⟩, ih⟩
  | attached hwf _ ih => exact List.forall_mem_cons.mpr ⟨⟨hwf, id⟩, ih⟩

/-- Whatever is read can be written. -/
theorem expressible_of_parseSegments {text : String} {segments : List Segment}
    (h : parseSegments text = .ok segments) : Expressible segments := by
  obtain ⟨items, hspells, rfl⟩ := parseSegments_eq_ok_iff.mp h
  generalize text.toList = cs at hspells
  obtain ⟨hwf, hrest⟩ := hspells
  have hitems := hrest.forall_item
  refine ⟨List.cons_ne_nil _ _, ?_, ?_⟩
  · rw [List.forall_mem_map]
    exact List.forall_mem_cons.mpr
      ⟨Item.writable_segment hwf, fun item hitem => Item.writable_segment (hitems item hitem).1⟩
  · rw [List.map_cons, List.tail_cons, List.forall_mem_map]
    exact fun item hitem harg => (hitems item hitem).2 (Item.isSelector_of_isArgument harg)

theorem chunks_eq_iff {p q : Path} : p.chunks = q.chunks ↔ p.segments = q.segments := by
  constructor
  · intro h
    rw [segments_eq_intercalate, h, segments_eq_intercalate]
  · intro h
    have hsplit := split_segments p
    rw [h, split_segments] at hsplit
    obtain ⟨hfirst, hrest⟩ := Prod.mk.inj hsplit
    rw [chunks, chunks, hfirst, hrest]

theorem exists_read_render {text : String} {p : Path} (hp : Path.read text = .ok p) :
    ∃ q, Path.read (render p.segments) = .ok q ∧ q.segments = p.segments := by
  have hexpressible := expressible_of_parseSegments (read_eq_ok_iff.mp hp).2
  exact exists_read_of_parseSegments
    (hexpressible.parseSegments_of_written (written_render hexpressible.ne_nil))

/--
Segments that are written with dots between them, or without those in front of
brackets, are read as these segments. So the segments of a path, written with all
dots, are read as its chunks, and paths have the same chunks just if they are the
same text with all dots.
-/
theorem rendering_inverts_reading :
    (∀ segments, Expressible segments → Written segments (render segments).toList ∧
      ∀ text, Written segments text.toList →
        ∃ p, Path.read text = .ok p ∧
          [Segment.wildcard].intercalate (p.chunks.map (List.map .access)) = segments) ∧
    (∀ text p, Path.read text = .ok p →
      ∃ q, Path.read (render p.segments) = .ok q ∧ q.chunks = p.chunks) ∧
    ∀ left right p q, Path.read left = .ok p → Path.read right = .ok q →
      (p.chunks = q.chunks ↔ render p.segments = render q.segments) := by
  refine ⟨fun segments h => ⟨written_render h.ne_nil, fun text htext => ?_⟩,
    fun text p hp => ?_, fun left right p q hp hq => ?_⟩
  · obtain ⟨p, hp, hsegments⟩ := exists_read_of_parseSegments (h.parseSegments_of_written htext)
    exact ⟨p, hp, by rw [← segments_eq_intercalate, hsegments]⟩
  · simp only [chunks_eq_iff]
    exact exists_read_render hp
  · rw [chunks_eq_iff]
    refine ⟨congrArg render, fun h => ?_⟩
    obtain ⟨p', hp', hp'p⟩ := exists_read_render hp
    obtain ⟨q', hq', hq'q⟩ := exists_read_render hq
    rw [h, hq'] at hp'
    rw [← hp'p, ← hq'q, Except.ok.inj hp']

/-- A selector, a key that begins like one, and the largest index. -/
def brackets : List Segment :=
  [.access (.argument 1), .access (.key "$1x"), .access (.index (2 ^ 64 - 1)), .wildcard, .wildcard]

theorem rendering_inverts_reading_brackets :
    Expressible brackets ∧ render brackets = "$1.$1x.[18446744073709551615].[].[]" ∧
      ∃ p, Path.read "$1.$1x[18446744073709551615][].[]" = .ok p ∧
        [Segment.wildcard].intercalate (p.chunks.map (List.map .access)) = brackets := by
  have hexpressible : Expressible brackets := by
    refine ⟨List.cons_ne_nil _ _, ?_, ?_⟩
    · simp only [brackets, List.forall_mem_cons, Writable]
      exact ⟨by decide, ⟨by decide, by decide⟩, by decide, trivial, trivial, nofun⟩
    · simp [brackets, IsArgument]
  have hwritten : Written brackets "$1.$1x[18446744073709551615][].[]".toList := by
    have htext : "$1.$1x[18446744073709551615][].[]".toList =
        (access (.argument 1)).text.toList ++ '.' :: ((access (.key "$1x")).text.toList ++
          ((access (.index (2 ^ 64 - 1))).text.toList ++
            (wildcard.text.toList ++ '.' :: (wildcard.text.toList ++ [])))) := by decide +kernel
    rw [htext]
    exact .intro (.dotted (.attached trivial (.attached trivial (.dotted .done))))
  obtain ⟨_, hread⟩ := rendering_inverts_reading.1 brackets hexpressible
  exact ⟨hexpressible, by decide +kernel, hread _ hwritten⟩

end Path

end Reshape
