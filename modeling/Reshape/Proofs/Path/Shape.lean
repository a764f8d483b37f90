import Reshape.Proofs.Path.Rendering
import Reshape.Proofs.Text.Splitting

/-! # The shape of a path

The wildcards of a path are the places where its text has a pair of brackets with
nothing between them. They cut the text into pieces, one for each chunk, and a
chunk is empty if its piece is, apart from a dot. So the chunks can be read off
the text.
-/

namespace Reshape

namespace Text

/-- The number of places where a delimiter begins in a text. -/
def occurrences (delimiter cs : List Char) : Nat :=
  cs.tails.countP fun rest => delimiter.isPrefixOf rest

section Splitting

variable {delimiter cs : List Char} {c : Char}

theorem splitParts_nil (hd : delimiter ≠ []) : splitParts delimiter [] = [[]] :=
  splitParts_of_cut?_eq_none (by simp [cut?, hd])

theorem splitParts_cons (hd : delimiter ≠ []) (h : ¬ delimiter <+: c :: cs) :
    splitParts delimiter (c :: cs) = (splitParts delimiter cs).modifyHead (c :: ·) := by
  have hcut : cut? delimiter (c :: cs) =
      (cut? delimiter cs).map (Prod.map (c :: ·) id) := by
    rw [cut?, if_neg (mt List.isPrefixOf_iff_prefix.mp h)]
    rfl
  cases hcs : cut? delimiter cs with
  | none =>
    rw [hcs] at hcut
    rw [splitParts_of_cut?_eq_none hcut, splitParts_of_cut?_eq_none hcs]
    rfl
  | some found =>
    obtain ⟨before, after⟩ := found
    rw [hcs] at hcut
    rw [splitParts_of_cut? hd hcut, splitParts_of_cut? hd hcs]
    rfl

theorem splitParts_delimiter_append (hd : delimiter ≠ []) (cs : List Char) :
    splitParts delimiter (delimiter ++ cs) = [] :: splitParts delimiter cs := by
  have hfirst : EndsAtFirst delimiter [] (delimiter ++ cs) :=
    ⟨List.prefix_append _ _, fun _ _ => Nat.zero_le _⟩
  exact splitParts_of_cut? hd (cut?_eq_some_iff.mpr ⟨rfl, hfirst⟩)

theorem occurrences_cons (delimiter : List Char) (c : Char) (cs : List Char) :
    occurrences delimiter (c :: cs) =
      occurrences delimiter cs + if delimiter <+: c :: cs then 1 else 0 := by
  simp only [occurrences, List.tails_cons, List.countP_cons, List.isPrefixOf_iff_prefix]

end Splitting

section Pairs

variable {a b : Char}

/-- A text is read from the left, over an occurrence of a pair or else over one character. -/
theorem pair_induction {motive : List Char → Prop} (nil : motive [])
    (pair : ∀ cs, motive cs → motive ([a, b] ++ cs))
    (other : ∀ c cs, ¬ [a, b] <+: c :: cs → motive cs → motive (c :: cs)) (cs : List Char) :
    motive cs := by
  induction hn : cs.length using Nat.strong_induction_on generalizing cs with
  | _ n ih =>
    cases cs with
    | nil => exact nil
    | cons c cs =>
      by_cases h : [a, b] <+: c :: cs
      · obtain ⟨rest, hrest⟩ := h
        rw [← hrest] at hn ⊢
        refine pair rest (ih _ ?_ rest rfl)
        simp only [List.length_append, List.length_cons, List.length_nil] at hn
        omega
      · exact other c cs h (ih _ (hn ▸ Nat.lt_succ_self _) cs rfl)

theorem not_pair_prefix_append (hab : a ≠ b) {c : Char} {cs : List Char}
    (h : ¬ [a, b] <+: c :: cs) (after : List Char) :
    ¬ [a, b] <+: c :: (cs ++ [a, b] ++ after) := by
  cases cs with
  | nil =>
    intro hprefix
    simp only [List.nil_append, List.cons_append, List.cons_prefix_cons] at hprefix
    exact hab hprefix.2.1.symm
  | cons d cs => simpa using h

theorem splitParts_ne_nil {delimiter cs : List Char} (hd : delimiter ≠ []) :
    splitParts delimiter cs ≠ [] :=
  (splits_splitParts hd cs).ne_nil

theorem splitParts_append (hab : a ≠ b) (before after : List Char) :
    splitParts [a, b] (before ++ [a, b] ++ after) =
      splitParts [a, b] before ++ splitParts [a, b] after := by
  have hd : [a, b] ≠ [] := List.cons_ne_nil _ _
  induction before using pair_induction (a := a) (b := b) with
  | nil => rw [List.nil_append, splitParts_delimiter_append hd, splitParts_nil hd]; rfl
  | pair before ih =>
    rw [List.append_assoc, List.append_assoc, splitParts_delimiter_append hd, ← List.append_assoc,
      ih, splitParts_delimiter_append hd, List.cons_append]
  | other c before h ih =>
    rw [splitParts_cons hd h, List.cons_append, List.cons_append,
      splitParts_cons hd (not_pair_prefix_append hab h after), ih]
    have hne : splitParts [a, b] before ≠ [] := splitParts_ne_nil hd
    obtain ⟨part, parts, hparts⟩ := List.exists_cons_of_ne_nil hne
    rw [hparts]
    rfl

theorem length_splitParts (hab : a ≠ b) (cs : List Char) :
    (splitParts [a, b] cs).length = occurrences [a, b] cs + 1 := by
  have hd : [a, b] ≠ [] := List.cons_ne_nil _ _
  induction cs using pair_induction (a := a) (b := b) with
  | nil => rw [splitParts_nil hd]; rfl
  | pair cs ih =>
    have hsecond : ¬ [a, b] <+: b :: cs := by
      rw [List.cons_prefix_cons]
      exact fun h => hab h.1
    rw [splitParts_delimiter_append hd, List.length_cons, ih, List.cons_append, List.cons_append,
      List.nil_append, occurrences_cons, occurrences_cons, if_neg hsecond, if_pos (by simp)]
  | other c cs h ih =>
    rw [splitParts_cons hd h, List.length_modifyHead, ih, occurrences_cons, if_neg h]

theorem intercalate_append {delimiter : List Char} {firsts lasts : List (List Char)}
    (hfirsts : firsts ≠ []) (hlasts : lasts ≠ []) :
    delimiter.intercalate (firsts ++ lasts) =
      delimiter.intercalate firsts ++ delimiter ++ delimiter.intercalate lasts := by
  induction firsts with
  | nil => exact absurd rfl hfirsts
  | cons part firsts ih =>
    cases firsts with
    | nil =>
      rw [List.singleton_append, List.intercalate_cons_of_ne_nil hlasts,
        List.intercalate_singleton]
    | cons next firsts =>
      rw [List.cons_append, List.cons_append, List.intercalate_cons_cons,
        List.intercalate_cons_cons, ← List.cons_append, ih (List.cons_ne_nil _ _)]
      simp only [List.append_assoc]

theorem intercalate_splitParts {delimiter : List Char} (hd : delimiter ≠ []) (cs : List Char) :
    delimiter.intercalate (splitParts delimiter cs) = cs :=
  (splits_splitParts hd cs).intercalate

theorem splitParts_of_not_occurs {delimiter cs : List Char} (h : ¬ delimiter <:+: cs) :
    splitParts delimiter cs = [cs] :=
  splitParts_of_cut?_eq_none (cut?_eq_none_iff.mpr h)

theorem splitParts_intercalate (hab : a ≠ b) {parts : List (List Char)} (hne : parts ≠ [])
    (h : ∀ part ∈ parts, ¬ [a, b] <:+: part) :
    splitParts [a, b] ([a, b].intercalate parts) = parts := by
  induction parts with
  | nil => exact absurd rfl hne
  | cons part rest ih =>
    obtain ⟨hpart, hrest⟩ := List.forall_mem_cons.mp h
    cases rest with
    | nil => rw [List.intercalate_singleton, splitParts_of_not_occurs hpart]
    | cons next rest =>
      rw [List.intercalate_cons_cons, splitParts_append hab, splitParts_of_not_occurs hpart,
        ih (List.cons_ne_nil _ _) hrest]
      rfl

variable {cs : List Char}

theorem prefix_of_head?_splitParts {delimiter piece : List Char} (hd : delimiter ≠ [])
    (h : (splitParts delimiter cs).head? = some piece) : piece <+: cs := by
  obtain ⟨rest, hparts⟩ := List.head?_eq_some_iff.mp h
  rw [← intercalate_splitParts hd cs, hparts]
  exact prefix_intercalate piece rest

theorem suffix_of_getLast?_splitParts {delimiter piece : List Char} (hd : delimiter ≠ [])
    (h : (splitParts delimiter cs).getLast? = some piece) : piece <:+ cs := by
  obtain ⟨firsts, hparts⟩ := List.getLast?_eq_some_iff.mp h
  rw [← intercalate_splitParts hd cs, hparts]
  by_cases hfirsts : firsts = []
  · rw [hfirsts, List.nil_append, List.intercalate_singleton]
  · rw [intercalate_append hfirsts (List.cons_ne_nil _ _), List.intercalate_singleton]
    exact List.suffix_append _ piece

theorem head?_splitParts_iff {delimiter : List Char} (hd : delimiter ≠ []) (hne : cs ≠ []) :
    (splitParts delimiter cs).head? = some [] ↔ delimiter <+: cs := by
  constructor
  · intro h
    obtain ⟨rest, hparts⟩ := List.head?_eq_some_iff.mp h
    have hjoin := intercalate_splitParts hd cs
    rw [hparts] at hjoin
    cases rest with
    | nil => exact absurd hjoin.symm hne
    | cons next rest =>
      rw [← hjoin, List.intercalate_cons_cons, List.nil_append]
      exact List.prefix_append _ _
  · rintro ⟨rest, rfl⟩
    rw [splitParts_delimiter_append hd, List.head?_cons]

theorem getLast?_splitParts_iff (hab : a ≠ b) (hne : cs ≠ []) :
    (splitParts [a, b] cs).getLast? = some [] ↔ [a, b] <:+ cs := by
  have hd : [a, b] ≠ [] := List.cons_ne_nil _ _
  constructor
  · intro h
    obtain ⟨firsts, hparts⟩ := List.getLast?_eq_some_iff.mp h
    have hjoin := intercalate_splitParts hd cs
    rw [hparts] at hjoin
    by_cases hfirsts : firsts = []
    · subst hfirsts
      exact absurd hjoin.symm hne
    · rw [intercalate_append hfirsts (List.cons_ne_nil _ _), List.intercalate_singleton,
        List.append_nil] at hjoin
      exact ⟨_, hjoin⟩
  · rintro ⟨firsts, rfl⟩
    have hparts := splitParts_append hab firsts []
    rw [List.append_nil, splitParts_nil hd] at hparts
    rw [hparts, List.getLast?_concat]

theorem exists_append_of_getElem? {α : Type} {l : List α} {i : Nat} {x : α} (h : l[i]? = some x) :
    ∃ firsts lasts, l = firsts ++ x :: lasts ∧ firsts.length = i := by
  obtain ⟨hlt, rfl⟩ := List.getElem?_eq_some_iff.mp h
  refine ⟨l.take i, l.drop (i + 1), ?_, List.length_take_of_le hlt.le⟩
  rw [← List.drop_eq_getElem_cons hlt, List.take_append_drop]

/-- A part in the middle stands between two occurrences of which the first is counted. -/
theorem getElem?_splitParts_iff (hab : a ≠ b) {piece : List Char} (hpiece : ¬ [a, b] <:+: piece)
    {i : Nat} (hi : i + 2 < (splitParts [a, b] cs).length) :
    (splitParts [a, b] cs)[i + 1]? = some piece ↔
      ∃ before after, cs = before ++ [a, b] ++ piece ++ [a, b] ++ after ∧
        occurrences [a, b] before = i := by
  have hd : [a, b] ≠ [] := List.cons_ne_nil _ _
  have hpart : ∀ part ∈ splitParts [a, b] cs, ¬ [a, b] <:+: part :=
    (splits_splitParts hd cs).not_occurs hd
  constructor
  · intro h
    obtain ⟨firsts, lasts, hparts, hlength⟩ := exists_append_of_getElem? h
    have hfirsts : firsts ≠ [] := List.ne_nil_of_length_eq_add_one hlength
    have hlasts : lasts ≠ [] := by
      rintro rfl
      rw [hparts, List.length_append, hlength, List.length_singleton] at hi
      omega
    refine ⟨[a, b].intercalate firsts, [a, b].intercalate lasts, ?_, ?_⟩
    · rw [← intercalate_splitParts hd cs, hparts,
        intercalate_append hfirsts (List.cons_ne_nil _ _),
        List.intercalate_cons_of_ne_nil hlasts]
      simp only [List.append_assoc]
    · have hsplit := splitParts_intercalate hab hfirsts fun part hmem =>
        hpart part (hparts ▸ List.mem_append_left _ hmem)
      have hcount := length_splitParts hab ([a, b].intercalate firsts)
      rw [hsplit, hlength] at hcount
      omega
  · rintro ⟨before, after, rfl, rfl⟩
    have hbefore := length_splitParts hab before
    rw [List.append_assoc _ piece, List.append_assoc _ (piece ++ _), splitParts_append hab,
      splitParts_append hab, splitParts_of_not_occurs hpiece,
      List.getElem?_append_right hbefore.le, hbefore, Nat.sub_self]
    rfl

end Pairs

end Text

namespace Path

open Text

abbrev crossing : List Char := ['[', ']']

/-- A chunk is written with nothing, or with a dot only, just if it is empty. -/
def Fits (chunk : Chunk) (piece : List Char) : Prop := chunk = [] ↔ piece = [] ∨ piece = ['.']

def chunksOf (segments : List Segment) : List Chunk :=
  (Chunk.split segments).1 :: (Chunk.split segments).2

section Pieces

variable {item : Item} {items : List Item} {cs rest : List Char} {segments : List Segment}

theorem splitParts_run {run : List Char} (h : ∀ c ∈ run, c ≠ '[') (rest : List Char) :
    splitParts crossing (run ++ rest) = (splitParts crossing rest).modifyHead (run ++ ·) := by
  induction run with
  | nil =>
    rw [List.nil_append]
    cases splitParts crossing rest <;> rfl
  | cons c run ih =>
    obtain ⟨hc, hrun⟩ := List.forall_mem_cons.mp h
    have hne : ¬ crossing <+: c :: (run ++ rest) := by
      rw [List.cons_prefix_cons]
      exact fun h => hc h.1.symm
    rw [List.cons_append, splitParts_cons (List.cons_ne_nil _ _) hne, ih hrun,
      List.modifyHead_modifyHead]
    rfl

theorem IsIdentifier.ne_of_mem {chars : List Char} {c d : Char} (h : IsIdentifier chars)
    (hd : ¬ IsIdentifierRest d) (hc : c ∈ chars) : c ≠ d := by
  rintro rfl
  exact hd (h.forall_isIdentifierRest c hc)

theorem Item.ne_of_mem_digits {digits : List Char} {c d : Char}
    (h : (Item.bracket digits).WellFormed) (hd : d.isDigit = false) (hc : c ∈ digits) :
    c ≠ d := by
  rintro rfl
  rw [(h (List.ne_nil_of_mem hc)).1.2 c hc] at hd
  cases hd

theorem Item.ne_dot (h : item.WellFormed) : ∀ c ∈ item.chars, c ≠ '.' := by
  cases item with
  | identifier chars => exact fun c hc => h.1.ne_of_mem (by decide) hc
  | bracket digits =>
    simp only [Item.chars, List.forall_mem_cons, List.forall_mem_append]
    exact ⟨by decide, fun c hc => Item.ne_of_mem_digits h (by decide) hc, by decide, by simp⟩

theorem Item.chars_of_segment (h : item.segment = .wildcard) : item.chars = crossing := by
  cases item with
  | identifier chars =>
    rw [Item.segment] at h
    split at h <;> cases h
  | bracket digits =>
    cases digits with
    | nil => rfl
    | cons c digits => cases h

theorem splitParts_item {a : Access} (hwf : item.WellFormed) (h : item.segment = .access a)
    (rest : List Char) :
    splitParts crossing (item.chars ++ rest) =
      (splitParts crossing rest).modifyHead (item.chars ++ ·) := by
  cases item with
  | identifier chars =>
    exact splitParts_run (fun c hc => hwf.1.ne_of_mem (by decide) hc) rest
  | bracket digits =>
    cases digits with
    | nil => cases h
    | cons c digits =>
      have hclose : c ≠ ']' := Item.ne_of_mem_digits hwf (by decide) List.mem_cons_self
      have hrun : ∀ d ∈ c :: digits ++ [']'], d ≠ '[' := by
        rw [List.forall_mem_append, List.forall_mem_singleton]
        exact ⟨fun d hd => Item.ne_of_mem_digits hwf (by decide) hd, by decide⟩
      have hne : ¬ crossing <+: '[' :: (c :: digits ++ [']'] ++ rest) := by
        simpa using hclose.symm
      rw [Item.chars, List.cons_append, splitParts_cons (List.cons_ne_nil _ _) hne,
        splitParts_run hrun, List.modifyHead_modifyHead]
      rfl

theorem Item.not_short {before : List Char} (hbefore : before = [] ∨ before = ['.'])
    (hwf : item.WellFormed) (piece : List Char) :
    ¬ (before ++ (item.chars ++ piece) = [] ∨ before ++ (item.chars ++ piece) = ['.']) := by
  obtain ⟨c, chars, hchars⟩ := List.exists_cons_of_ne_nil (Item.chars_ne_nil hwf)
  have hc : c ≠ '.' := Item.ne_dot hwf c (hchars ▸ List.mem_cons_self)
  rw [hchars]
  rcases hbefore with rfl | rfl <;> simp [hc]

theorem forall₂_fits_item {before : List Char} (hbefore : before = [] ∨ before = ['.'])
    (hwf : item.WellFormed)
    (h : List.Forall₂ Fits (chunksOf segments) (splitParts crossing rest)) :
    List.Forall₂ Fits (chunksOf (item.segment :: segments))
      (splitParts crossing (before ++ item.chars ++ rest)) := by
  have hrun : ∀ c ∈ before, c ≠ '[' := by
    rcases hbefore with rfl | rfl <;> simp
  cases hseg : item.segment with
  | wildcard =>
    have hparts : splitParts crossing before = [before] := by
      simpa [splitParts_nil] using splitParts_run hrun []
    rw [Item.chars_of_segment hseg, splitParts_append (by decide), hparts]
    exact .cons (iff_of_true rfl hbefore) h
  | access a =>
    rw [List.append_assoc, splitParts_run hrun, splitParts_item hwf hseg,
      List.modifyHead_modifyHead]
    generalize splitParts crossing rest = pieces at h
    cases h with
    | cons _ htail =>
      exact .cons (iff_of_false (List.cons_ne_nil _ _) (Item.not_short hbefore hwf _)) htail

theorem Continues.forall₂_fits (h : Continues cs items) :
    List.Forall₂ Fits (chunksOf (items.map Item.segment)) (splitParts crossing cs) := by
  induction h with
  | done =>
    rw [splitParts_nil (List.cons_ne_nil _ _)]
    exact .cons (iff_of_true rfl (.inl rfl)) .nil
  | dotted hwf _ _ ih => exact forall₂_fits_item (.inr rfl) hwf ih
  | attached hwf _ ih => exact forall₂_fits_item (.inl rfl) hwf ih

/-- A text that is written with items has a chunk for each piece between wildcards. -/
theorem Spells.forall₂_fits (h : Spells cs items) :
    List.Forall₂ Fits (chunksOf (items.map Item.segment)) (splitParts crossing cs) := by
  obtain ⟨hwf, hrest⟩ := h
  exact forall₂_fits_item (.inl rfl) hwf hrest.forall₂_fits

theorem Spells.head?_ne (h : Spells cs items) : ∃ c more, cs = c :: more ∧ c ≠ '.' := by
  obtain ⟨hwf, _⟩ := h
  obtain ⟨c, chars, hchars⟩ := List.exists_cons_of_ne_nil (Item.chars_ne_nil hwf)
  exact ⟨c, _, by rw [hchars, List.cons_append],
    Item.ne_dot hwf c (hchars ▸ List.mem_cons_self)⟩

theorem Item.getLast?_ne (hwf : item.WellFormed) (h : ∀ c ∈ rest.getLast?, c ≠ '.') :
    ∀ c ∈ (item.chars ++ rest).getLast?, c ≠ '.' := by
  rw [List.getLast?_append]
  cases hlast : rest.getLast? with
  | none => exact fun c hc => Item.ne_dot hwf c (List.mem_of_getLast? hc)
  | some d =>
    rw [hlast] at h
    exact h

theorem Continues.getLast?_ne (h : Continues cs items) : ∀ c ∈ cs.getLast?, c ≠ '.' := by
  induction h with
  | done => simp
  | @dotted item rest items hwf _ _ ih =>
    have hlast := Item.getLast?_ne hwf ih
    have hne : item.chars ++ rest ≠ [] := by simp [Item.chars_ne_nil hwf]
    obtain ⟨c, cs, hcs⟩ := List.exists_cons_of_ne_nil hne
    rw [hcs] at hlast ⊢
    rwa [List.getLast?_cons_cons]
  | attached hwf _ ih => exact Item.getLast?_ne hwf ih

theorem Spells.getLast?_ne (h : Spells cs items) : ∀ c ∈ cs.getLast?, c ≠ '.' := by
  obtain ⟨hwf, hrest⟩ := h
  exact Item.getLast?_ne hwf hrest.getLast?_ne

end Pieces

section Chunks

variable {text : String} {p : Path}

theorem getElem?_of_forall₂_fits {chunks : List Chunk} {pieces : List (List Char)}
    (h : List.Forall₂ Fits chunks pieces) (i : Nat) :
    chunks[i]? = some [] ↔ pieces[i]? = some [] ∨ pieces[i]? = some ['.'] := by
  induction h generalizing i with
  | nil => simp
  | cons hfits _ ih =>
    cases i with
    | zero => simpa [Fits] using hfits
    | succ i => simpa using ih i

theorem exists_spells (hp : Path.read text = .ok p) :
    ∃ items, Spells text.toList items ∧ items.map Item.segment = p.segments :=
  parseSegments_eq_ok_iff.mp (read_eq_ok_iff.mp hp).2

theorem forall₂_fits_chunks (hp : Path.read text = .ok p) :
    List.Forall₂ Fits p.chunks (splitParts crossing text.toList) := by
  obtain ⟨items, hspells, hsegments⟩ := exists_spells hp
  have hfits := hspells.forall₂_fits
  rwa [hsegments, chunksOf, split_segments] at hfits

theorem length_chunks (hp : Path.read text = .ok p) :
    p.chunks.length = occurrences crossing text.toList + 1 := by
  rw [(forall₂_fits_chunks hp).length_eq, length_splitParts (by decide)]

theorem toList_ne_nil (hp : Path.read text = .ok p) : text.toList ≠ [] := by
  obtain ⟨items, hspells, _⟩ := exists_spells hp
  obtain ⟨c, more, htext, _⟩ := hspells.head?_ne
  rw [htext]
  exact List.cons_ne_nil _ _

theorem head?_chunks_iff (hp : Path.read text = .ok p) :
    p.chunks.head? = some [] ↔ crossing <+: text.toList := by
  rw [← head?_splitParts_iff (List.cons_ne_nil _ _) (toList_ne_nil hp), List.head?_eq_getElem?,
    List.head?_eq_getElem?, getElem?_of_forall₂_fits (forall₂_fits_chunks hp), or_iff_left]
  intro hdot
  rw [← List.head?_eq_getElem?] at hdot
  obtain ⟨rest, hrest⟩ := prefix_of_head?_splitParts (List.cons_ne_nil _ _) hdot
  obtain ⟨items, hspells, _⟩ := exists_spells hp
  obtain ⟨c, more, htext, hc⟩ := hspells.head?_ne
  rw [htext] at hrest
  exact hc (List.cons.inj hrest).1.symm

theorem getLast?_chunks_iff (hp : Path.read text = .ok p) :
    p.chunks.getLast? = some [] ↔ crossing <:+ text.toList := by
  have hfits := forall₂_fits_chunks hp
  rw [← getLast?_splitParts_iff (by decide) (toList_ne_nil hp), List.getLast?_eq_getElem?,
    List.getLast?_eq_getElem?, getElem?_of_forall₂_fits hfits, hfits.length_eq, or_iff_left]
  intro hdot
  rw [← List.getLast?_eq_getElem?] at hdot
  obtain ⟨front, hfront⟩ := suffix_of_getLast?_splitParts (List.cons_ne_nil _ _) hdot
  obtain ⟨items, hspells, _⟩ := exists_spells hp
  have hlast := hspells.getLast?_ne
  rw [← hfront, List.getLast?_concat] at hlast
  exact hlast '.' rfl rfl

theorem getElem?_chunks_iff (hp : Path.read text = .ok p) {i : Nat}
    (hi : i + 2 < p.chunks.length) :
    p.chunks[i + 1]? = some [] ↔ ∃ before between after,
      text.toList = before ++ crossing ++ between ++ crossing ++ after ∧
        occurrences crossing before = i ∧ (between = [] ∨ between = ['.']) := by
  have hfits := forall₂_fits_chunks hp
  rw [hfits.length_eq] at hi
  rw [getElem?_of_forall₂_fits hfits, getElem?_splitParts_iff (by decide) (by decide) hi,
    getElem?_splitParts_iff (by decide) (by decide) hi]
  constructor
  · rintro (⟨before, after, htext, hcount⟩ | ⟨before, after, htext, hcount⟩)
    · exact ⟨before, _, after, htext, hcount, .inl rfl⟩
    · exact ⟨before, _, after, htext, hcount, .inr rfl⟩
  · rintro ⟨before, between, after, htext, hcount, rfl | rfl⟩
    · exact .inl ⟨before, after, htext, hcount⟩
    · exact .inr ⟨before, after, htext, hcount⟩

/-- Only the first access of all may select an argument. -/
theorem place_of_argument (hp : Path.read text = .ok p) {i j n : Nat} {chunk : Chunk}
    (hi : p.chunks[i]? = some chunk) (hj : chunk[j]? = some (.argument n)) : i = 0 ∧ j = 0 := by
  have hnone : Segment.access (.argument n) ∉ p.segments.tail := fun hmem =>
    (expressible_of_parseSegments (read_eq_ok_iff.mp hp).2).argument _ hmem ⟨n, rfl⟩
  obtain ⟨_, first, rest⟩ := p
  rw [segments] at hnone
  cases i with
  | zero =>
    obtain rfl : first = chunk := Option.some.inj hi
    refine ⟨rfl, ?_⟩
    cases first with
    | nil => cases hj
    | cons a first =>
      cases j with
      | zero => rfl
      | succ j =>
        have hmem : Access.argument n ∈ first := List.mem_of_getElem? hj
        exact absurd (List.mem_append_left _ (List.mem_map_of_mem hmem)) hnone
  | succ i =>
    have hchunk : chunk ∈ rest := List.mem_of_getElem? hi
    have hmem : Segment.access (.argument n) ∈
        rest.flatMap fun chunk => .wildcard :: chunk.map Segment.access :=
      List.mem_flatMap.mpr ⟨chunk, hchunk,
        List.mem_cons_of_mem _ (List.mem_map_of_mem (List.mem_of_getElem? hj))⟩
    cases first with
    | cons a first => exact absurd (List.mem_append_right _ hmem) hnone
    | nil =>
      obtain ⟨next, rest, rfl⟩ := List.exists_cons_of_ne_nil (List.ne_nil_of_mem hchunk)
      rcases List.mem_cons.mp hmem with heq | hbehind
      · cases heq
      · exact absurd hbehind hnone

end Chunks

/--
A path has one chunk more than its text has wildcards. Its chunks are what the
wildcards cut the segments into, so there is no wildcard in them, and an argument
is selected at the start of the first one or not at all. The first is empty if the
text begins with a wildcard, the last if it ends with one, and another if there is
nothing but a dot between the wildcards around it. A path without a wildcard has
just one chunk, which is not empty.
-/
theorem parsed_path_shape {text : String} {p : Path} (hp : Path.read text = .ok p) :
    p.chunks.length = occurrences "[]".toList text.toList + 1 ∧
    p.wildcardCount = occurrences "[]".toList text.toList ∧
    parseSegments text =
      .ok ([Segment.wildcard].intercalate (p.chunks.map (List.map .access))) ∧
    (∀ chunk ∈ p.chunks, Segment.wildcard ∉ chunk.map Segment.access) ∧
    (∀ i chunk j n, p.chunks[i]? = some chunk → chunk[j]? = some (.argument n) →
      i = 0 ∧ j = 0) ∧
    (p.chunks.head? = some [] ↔ "[]".toList <+: text.toList) ∧
    (p.chunks.getLast? = some [] ↔ "[]".toList <:+ text.toList) ∧
    (∀ i, i + 2 < p.chunks.length → (p.chunks[i + 1]? = some [] ↔ ∃ before between after,
      text.toList = before ++ "[]".toList ++ between ++ "[]".toList ++ after ∧
        occurrences "[]".toList before = i ∧ (between = [] ∨ between = ['.']))) ∧
    (p.hasWildcard = false → p.chunks = [p.first] ∧ p.first ≠ []) := by
  have hlength := length_chunks hp
  refine ⟨hlength, Nat.succ.inj hlength, ?_, ?_,
    fun i chunk j n hi hj => place_of_argument hp hi hj, head?_chunks_iff hp,
    getLast?_chunks_iff hp, fun i hi => getElem?_chunks_iff hp hi, ?_⟩
  · rw [← segments_eq_intercalate]
    exact (read_eq_ok_iff.mp hp).2
  · intro chunk _ hmem
    obtain ⟨a, _, ha⟩ := List.mem_map.mp hmem
    cases ha
  · intro hnone
    have hrest : p.rest = [] := by simpa [hasWildcard] using hnone
    refine ⟨by rw [chunks, hrest], fun hfirst => ?_⟩
    refine (expressible_of_parseSegments (read_eq_ok_iff.mp hp).2).ne_nil ?_
    rw [segments, hfirst, hrest]
    rfl

theorem parsed_path_shape_crossings :
    ∃ p, Path.read "[].[].a[][2].[]" = .ok p ∧ p.chunks.length = 5 ∧
      p.chunks.head? = some [] ∧ p.chunks[1]? = some [] ∧ p.chunks.getLast? = some [] := by
  obtain ⟨p, hp⟩ : ∃ p, Path.read "[].[].a[][2].[]" = .ok p := by
    rw [← failure?_eq_none_iff]
    decide +kernel
  obtain ⟨hlength, _, _, _, _, hfirst, hlast, hmiddle, _⟩ := parsed_path_shape hp
  have hfive : p.chunks.length = 5 := hlength.trans (by decide +kernel)
  refine ⟨p, hp, hfive, hfirst.mpr (by decide +kernel), ?_, hlast.mpr (by decide +kernel)⟩
  refine (hmiddle 0 (by rw [hfive]; decide)).mpr ⟨[], ['.'], ".a[][2].[]".toList, ?_, ?_, .inr rfl⟩
  · decide +kernel
  · decide +kernel

end Path

end Reshape
