import Mathlib.Data.List.Infix
import Reshape.Proofs.Text.Regrouping

/-! # Splitting and joining

A text is split at the leftmost occurrence of the delimiter, and what follows is
split again. A delimiter may overlap with itself or with the ends of parts, so
the parts are characterised by these cuts and not by their characters. They are
joined to the text, and joined parts are split up again if the delimiter occurs
nowhere but between them.
-/

namespace Reshape

namespace Text

/-- A text that ends in front of the leftmost occurrence of a delimiter. -/
structure EndsAtFirst (delimiter before cs : List Char) : Prop where
  occurs : before ++ delimiter <+: cs
  leftmost : ∀ other, other ++ delimiter <+: cs → before.length ≤ other.length

/-- The parts of a text that is cut at one leftmost occurrence after the other. -/
inductive Splits (delimiter : List Char) : List Char → List (List Char) → Prop where
  | whole {cs : List Char} : ¬ delimiter <:+: cs → Splits delimiter cs [cs]
  | cut {before after : List Char} {parts : List (List Char)} :
    EndsAtFirst delimiter before (before ++ delimiter ++ after) → Splits delimiter after parts →
      Splits delimiter (before ++ delimiter ++ after) (before :: parts)

/-- A delimiter occurs in joined parts only where it has been put between them. -/
def OnlyBetween (delimiter : List Char) (parts : List (List Char)) : Prop :=
  ∀ before, before ++ delimiter <+: delimiter.intercalate parts →
    ∃ firsts lasts, firsts ≠ [] ∧ lasts ≠ [] ∧ firsts ++ lasts = parts ∧
      delimiter.intercalate firsts = before

variable {delimiter cs before after : List Char} {parts : List (List Char)}

section Cuts

theorem cut?_eq_none_iff : cut? delimiter cs = none ↔ ¬ delimiter <:+: cs := by
  induction cs with
  | nil => simp [cut?]
  | cons c cs ih =>
    rw [cut?, List.infix_cons_iff, not_or, ← ih, ← List.isPrefixOf_iff_prefix]
    split
    · rename_i h
      simp [h]
    · rename_i h
      simp [h]

theorem leftmost_of_cut? (h : cut? delimiter cs = some (before, after)) :
    EndsAtFirst delimiter before cs := by
  refine ⟨⟨after, append_of_cut? h⟩, ?_⟩
  induction cs generalizing before with
  | nil =>
    have hlength := congrArg List.length (append_of_cut? h)
    simp only [List.length_append, List.length_nil] at hlength
    intro other _
    omega
  | cons c cs ih =>
    intro other hother
    rw [cut?] at h
    split at h
    · cases h
      exact Nat.zero_le _
    · rename_i hne
      obtain ⟨⟨before, after⟩, hcut, hparts⟩ := Option.map_eq_some_iff.mp h
      obtain ⟨rfl, rfl⟩ := Prod.mk.inj hparts
      cases other with
      | nil => exact absurd (List.isPrefixOf_iff_prefix.mpr hother) hne
      | cons d other =>
        have hle := ih hcut other (List.cons_prefix_cons.mp hother).2
        exact Nat.succ_le_succ hle

theorem EndsAtFirst.eq {other : List Char} (h : EndsAtFirst delimiter before cs)
    (hother : EndsAtFirst delimiter other cs) : before = other := by
  have hlength : before.length = other.length :=
    Nat.le_antisymm (h.leftmost _ hother.occurs) (hother.leftmost _ h.occurs)
  have hprefix : before <+: cs := (List.prefix_append _ _).trans h.occurs
  have hother : other <+: cs := (List.prefix_append _ _).trans hother.occurs
  exact (List.prefix_of_prefix_length_le hprefix hother hlength.le).eq_of_length hlength

theorem cut?_eq_some_iff :
    cut? delimiter cs = some (before, after) ↔
      before ++ delimiter ++ after = cs ∧ EndsAtFirst delimiter before cs := by
  constructor
  · intro h
    exact ⟨append_of_cut? h, leftmost_of_cut? h⟩
  · rintro ⟨rfl, hfirst⟩
    cases hcut : cut? delimiter (before ++ delimiter ++ after) with
    | none => exact absurd (List.infix_append _ _ _) (cut?_eq_none_iff.mp hcut)
    | some found =>
      obtain ⟨front, back⟩ := found
      obtain rfl := hfirst.eq (leftmost_of_cut? hcut)
      rw [List.append_cancel_left (append_of_cut? hcut)]

theorem EndsAtFirst.not_occurs (hd : delimiter ≠ []) (h : EndsAtFirst delimiter before cs) :
    ¬ delimiter <:+: before := by
  rintro ⟨front, back, rfl⟩
  have hprefix : front ++ delimiter <+: cs := by
    refine List.IsPrefix.trans ?_ h.occurs
    rw [List.append_assoc]
    exact List.prefix_append _ _
  have hle := h.leftmost front hprefix
  have hpos := List.length_pos_iff.mpr hd
  simp only [List.length_append] at hle
  omega

end Cuts

section Parts

theorem splits_splitParts (hd : delimiter ≠ []) (cs : List Char) :
    Splits delimiter cs (splitParts delimiter cs) := by
  induction hn : cs.length using Nat.strong_induction_on generalizing cs with
  | _ n ih =>
    cases hcut : cut? delimiter cs with
    | none =>
      rw [splitParts_of_cut?_eq_none hcut]
      exact .whole (cut?_eq_none_iff.mp hcut)
    | some found =>
      obtain ⟨before, after⟩ := found
      have hafter := ih _ (hn ▸ length_of_cut? hd hcut) after rfl
      rw [splitParts_of_cut? hd hcut]
      obtain ⟨rfl, hfirst⟩ := cut?_eq_some_iff.mp hcut
      exact .cut hfirst hafter

theorem splitParts_eq_iff (hd : delimiter ≠ []) :
    splitParts delimiter cs = parts ↔ Splits delimiter cs parts := by
  constructor
  · rintro rfl
    exact splits_splitParts hd cs
  · intro h
    induction h with
    | whole hnone => exact splitParts_of_cut?_eq_none (cut?_eq_none_iff.mpr hnone)
    | cut hfirst _ ih =>
      rw [splitParts_of_cut? hd (cut?_eq_some_iff.mpr ⟨rfl, hfirst⟩), ih]

theorem Splits.ne_nil (h : Splits delimiter cs parts) : parts ≠ [] := by
  cases h <;> exact List.cons_ne_nil _ _

/-- No character is lost: with the delimiter between them, the parts are the text. -/
theorem Splits.intercalate (h : Splits delimiter cs parts) :
    delimiter.intercalate parts = cs := by
  induction h with
  | whole => exact List.intercalate_singleton
  | cut _ hrest ih => rw [List.intercalate_cons_of_ne_nil hrest.ne_nil, ih]

theorem Splits.not_occurs (hd : delimiter ≠ []) (h : Splits delimiter cs parts) :
    ∀ part ∈ parts, ¬ delimiter <:+: part := by
  induction h with
  | whole hnone => exact List.forall_mem_singleton.mpr hnone
  | cut hfirst _ ih => exact List.forall_mem_cons.mpr ⟨hfirst.not_occurs hd, ih⟩

theorem Splits.endsAtFirst (h : Splits delimiter cs parts) {earlier later : List (List Char)}
    {part : List Char} (hparts : parts = earlier ++ part :: later) (hlater : later ≠ []) :
    ∃ rest, cs = (earlier.flatMap fun p => p ++ delimiter) ++ rest ∧
      EndsAtFirst delimiter part rest := by
  induction h generalizing earlier with
  | @whole cs hnone =>
    have hlength := congrArg List.length hparts
    have hpos := List.length_pos_iff.mpr hlater
    simp only [List.length_append, List.length_cons, List.length_nil] at hlength
    omega
  | @cut before after parts hfirst _ ih =>
    cases earlier with
    | nil =>
      obtain ⟨rfl, rfl⟩ := List.cons.inj hparts
      exact ⟨_, rfl, hfirst⟩
    | cons p earlier =>
      obtain ⟨rfl, htail⟩ := List.cons.inj hparts
      obtain ⟨rest, rfl, hrest⟩ := ih htail
      exact ⟨rest, by simp, hrest⟩

end Parts

section Joins

theorem prefix_intercalate (part : List Char) (rest : List (List Char)) :
    part <+: delimiter.intercalate (part :: rest) := by
  cases rest with
  | nil => rw [List.intercalate_singleton]
  | cons next rest =>
    rw [List.intercalate_cons_cons, List.append_assoc]
    exact List.prefix_append _ _

theorem OnlyBetween.tail (hd : delimiter ≠ []) {part next : List Char} {rest : List (List Char)}
    (h : OnlyBetween delimiter (part :: next :: rest)) : OnlyBetween delimiter (next :: rest) := by
  intro before hbefore
  have hwhole : (part ++ delimiter ++ before) ++ delimiter <+:
      delimiter.intercalate (part :: next :: rest) := by
    rw [List.intercalate_cons_cons, List.append_assoc (part ++ delimiter)]
    exact (List.prefix_append_right_inj _).mpr hbefore
  obtain ⟨firsts, lasts, hfirsts, hlasts, hparts, hjoin⟩ := h _ hwhole
  obtain ⟨p, firsts, rfl⟩ := List.exists_cons_of_ne_nil hfirsts
  obtain ⟨rfl, htail⟩ := List.cons.inj hparts
  -- The occurrence is behind the first delimiter, so it is behind another part as well.
  have hne : firsts ≠ [] := by
    rintro rfl
    have hlength := congrArg List.length hjoin
    have hpos := List.length_pos_iff.mpr hd
    simp only [List.intercalate_singleton, List.length_append] at hlength
    omega
  rw [List.intercalate_cons_of_ne_nil hne] at hjoin
  exact ⟨firsts, lasts, hne, hlasts, htail, List.append_cancel_left hjoin⟩

theorem splits_intercalate (hd : delimiter ≠ []) (hne : parts ≠ [])
    (h : OnlyBetween delimiter parts) : Splits delimiter (delimiter.intercalate parts) parts := by
  induction parts with
  | nil => exact absurd rfl hne
  | cons part rest ih =>
    cases rest with
    | nil =>
      rw [List.intercalate_singleton]
      refine .whole ?_
      rintro ⟨front, back, hpart⟩
      have hfront : front ++ delimiter <+: delimiter.intercalate [part] :=
        ⟨back, by rw [List.intercalate_singleton, hpart]⟩
      obtain ⟨firsts, lasts, hfirsts, hlasts, hparts, _⟩ := h front hfront
      rcases List.append_eq_singleton_iff.mp hparts with ⟨hnil, _⟩ | ⟨_, hnil⟩
      · exact hfirsts hnil
      · exact hlasts hnil
    | cons next rest =>
      have hrest := ih (List.cons_ne_nil _ _) (h.tail hd)
      rw [List.intercalate_cons_cons]
      refine .cut ⟨List.prefix_append _ _, fun other hother => ?_⟩ hrest
      rw [← List.intercalate_cons_cons] at hother
      obtain ⟨firsts, lasts, hfirsts, _, hparts, rfl⟩ := h other hother
      obtain ⟨p, firsts, rfl⟩ := List.exists_cons_of_ne_nil hfirsts
      obtain ⟨rfl, _⟩ := List.cons.inj hparts
      exact (prefix_intercalate _ firsts).length_le

end Joins

end Text

namespace Value

def IsScalar (v : Value) : Prop := v.kind = .string ∨ v.kind = .number ∨ v.kind = .boolean

theorem exists_scalarText? {v : Value} (h : v.IsScalar) : ∃ s, v.scalarText? = some s := by
  cases v <;> simp_all [IsScalar, kind, scalarText?]

theorem split_of_scalarText? {delimiter s : String} {v : Value} (hd : delimiter ≠ "")
    (h : v.scalarText? = some s) :
    v.split delimiter =
      .ok (.array ((Text.splitParts delimiter.toList s.toList).map fun part =>
        .string (.ofList part))) := by
  have hnull : v.isNull = false := by
    cases v <;> simp_all [isNull, scalarText?]
  rw [split, if_neg (by simpa using hd), if_neg (by simp [hnull])]
  simp only [h]

theorem split_of_splits {delimiter s : String} {v : Value} {parts : List String}
    (hd : delimiter ≠ "") (h : v.scalarText? = some s)
    (hparts : Text.Splits delimiter.toList s.toList (parts.map String.toList)) :
    v.split delimiter = .ok (.array (parts.map .string)) := by
  have hne : delimiter.toList ≠ [] := by simpa using hd
  rw [split_of_scalarText? hd h, (Text.splitParts_eq_iff hne).mpr hparts, List.map_map]
  simp [Function.comp_def]

theorem concatenate_texts {texts : List String} (h : texts ≠ []) :
    concatenate (texts.map .string) = .ok (.string (String.join texts)) := by
  have htexts : scalarTexts (texts.map .string) = .ok texts := by
    clear h
    induction texts with
    | nil => rfl
    | cons s texts ih => rw [List.map_cons, Concatenation.scalarTexts_of_scalarText? rfl, ih]; rfl
  obtain ⟨s, texts, rfl⟩ := List.exists_cons_of_ne_nil h
  rw [concatenate, htexts]
  rfl

theorem intersperse_map {α β : Type} (f : α → β) (a : α) (l : List α) :
    (l.map f).intersperse (f a) = (l.intersperse a).map f := by
  induction l with
  | nil => rfl
  | cons x l ih =>
    cases l with
    | nil => rfl
    | cons y l => simpa using ih

theorem join_intersperse (delimiter : String) (parts : List String) :
    String.join (parts.intersperse delimiter) = delimiter.intercalate parts := by
  rw [← String.toList_inj, String.toList_join, String.toList_intercalate, List.flatMap_def,
    ← intersperse_map, List.intercalate]

theorem concatenate_intersperse {parts : List String} (delimiter : String) (h : parts ≠ []) :
    concatenate ((parts.map .string).intersperse (.string delimiter)) =
      .ok (.string (delimiter.intercalate parts)) := by
  have hne : parts.intersperse delimiter ≠ [] := by
    obtain ⟨part, rest, rfl⟩ := List.exists_cons_of_ne_nil h
    cases rest <;> simp
  rw [intersperse_map, concatenate_texts hne, join_intersperse]

end Value

open Text in
/--
A scalar is split into texts that lose nothing: with the delimiter between them
they are concatenated to its text. None has the delimiter in it, and each but the
last ends at the leftmost occurrence in the text behind the delimiter before it.
Texts that are joined are split up again if the delimiter occurs in the joined
text only between them.
-/
theorem splitting_loses_nothing {delimiter : String} (hd : delimiter ≠ "") :
    (∀ v : Value, v.IsScalar → ∃ s parts, v.scalarText? = some s ∧ parts ≠ [] ∧
      v.split delimiter = .ok (.array (parts.map .string)) ∧
      Value.concatenate ((parts.map .string).intersperse (.string delimiter)) = .ok (.string s) ∧
      (∀ part ∈ parts, ¬ delimiter.toList <:+: part.toList) ∧
      ∀ earlier part later, parts = earlier ++ part :: later → later ≠ [] →
        ∃ rest, s = String.join (earlier.map fun p => p ++ delimiter) ++ rest ∧
          EndsAtFirst delimiter.toList part.toList rest.toList) ∧
    ∀ parts : List String, parts ≠ [] →
      OnlyBetween delimiter.toList (parts.map String.toList) →
        (Value.string (delimiter.intercalate parts)).split delimiter =
          .ok (.array (parts.map .string)) := by
  have hne : delimiter.toList ≠ [] := by simpa using hd
  constructor
  · intro v hv
    obtain ⟨s, hs⟩ := Value.exists_scalarText? hv
    obtain ⟨parts, hparts⟩ : ∃ parts : List String,
        Splits delimiter.toList s.toList (parts.map String.toList) := by
      refine ⟨(splitParts delimiter.toList s.toList).map String.ofList, ?_⟩
      simpa [Function.comp_def] using splits_splitParts hne s.toList
    have hnonempty : parts ≠ [] := by simpa using hparts.ne_nil
    have hjoin : delimiter.intercalate parts = s := by
      rw [← String.toList_inj, String.toList_intercalate, hparts.intercalate]
    refine ⟨s, parts, hs, hnonempty, Value.split_of_splits hd hs hparts, ?_, ?_, ?_⟩
    · rw [Value.concatenate_intersperse delimiter hnonempty, hjoin]
    · exact fun part hpart => hparts.not_occurs hne _ (List.mem_map_of_mem hpart)
    · rintro earlier part later rfl hlater
      rw [List.map_append, List.map_cons] at hparts
      obtain ⟨rest, htext, hrest⟩ := hparts.endsAtFirst rfl (by simpa using hlater)
      refine ⟨.ofList rest, ?_, by simpa using hrest⟩
      rw [← String.toList_inj, htext]
      simp [String.toList_join, List.flatMap_map]
  · intro parts hparts hbetween
    have hsplits := splits_intercalate hne (by simpa using hparts) hbetween
    rw [← String.toList_intercalate] at hsplits
    exact Value.split_of_splits hd rfl hsplits

theorem splitting_loses_nothing_overlap :
    "aa" ≠ "" ∧ (Value.string "aaa").IsScalar ∧
      (Value.string "aaa").split "aa" = .ok (.array [.string "", .string "a"]) ∧
      (∃ parts : List String, (Value.string "aaa").split "aa" = .ok (.array (parts.map .string)) ∧
        Value.concatenate ((parts.map .string).intersperse (.string "aa")) =
          .ok (.string "aaa")) ∧
      (Value.string "baac").split "aa" = .ok (.array [.string "b", .string "c"]) := by
  have hd : "aa" ≠ "" := by decide
  have hscalar : (Value.string "aaa").IsScalar := .inl rfl
  have hsplits : Text.Splits ['a', 'a'] ['a', 'a', 'a'] [[], ['a']] :=
    @Text.Splits.cut _ [] ['a'] _ ⟨by decide, fun _ _ => Nat.zero_le _⟩ (.whole (by decide))
  obtain ⟨hsplit, hjoin⟩ := splitting_loses_nothing hd
  refine ⟨hd, hscalar, @Value.split_of_splits _ _ _ ["", "a"] hd rfl hsplits, ?_,
    hjoin ["b", "c"] (by decide) ?_⟩
  · obtain ⟨s, parts, hs, _, hparts, htext, _⟩ := hsplit _ hscalar
    obtain rfl : "aaa" = s := Option.some.inj hs
    exact ⟨parts, hparts, htext⟩
  · intro before hbefore
    have hprefix : before ++ ['a', 'a'] <+: ['b', 'a', 'a', 'c'] := hbefore
    refine ⟨[['b']], [['c']], by decide, by decide, rfl, ?_⟩
    match before with
    | [] => simp at hprefix
    | [b] =>
      obtain rfl : b = 'b' := by simpa using hprefix
      rfl
    | [_, _] => simp at hprefix
    | _ :: _ :: _ :: _ => exact absurd hprefix.length_le (by simp)

end Reshape
