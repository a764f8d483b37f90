/-! # Splitting texts

A text is cut at the leftmost occurrence of a delimiter, and again in what
follows it. Joining the parts with the delimiter between them gives the text.
-/

namespace Reshape.Text

/-- The text before the leftmost occurrence of a delimiter and the text after it. -/
def cut? (delimiter : List Char) : List Char → Option (List Char × List Char)
  | [] => if delimiter.isEmpty then some ([], []) else none
  | c :: cs =>
    if delimiter.isPrefixOf (c :: cs) then some ([], (c :: cs).drop delimiter.length)
    else (cut? delimiter cs).map fun (before, after) => (c :: before, after)

/-- A cut loses nothing but the delimiter. -/
theorem append_of_cut? {delimiter cs before after : List Char}
    (h : cut? delimiter cs = some (before, after)) : before ++ delimiter ++ after = cs := by
  induction cs generalizing before with
  | nil =>
    simp only [cut?] at h
    split at h
    · rename_i hd
      cases h
      simpa using hd
    · cases h
  | cons c cs ih =>
    simp only [cut?] at h
    split at h
    · rename_i hd
      cases h
      obtain ⟨rest, hrest⟩ := List.isPrefixOf_iff_prefix.mp hd
      simp [← hrest]
    · cases hcut : cut? delimiter cs with
      | none => simp [hcut] at h
      | some parts =>
        simp only [hcut, Option.map_some, Option.some.injEq, Prod.mk.injEq] at h
        obtain ⟨rfl, rfl⟩ := h
        simp [← ih hcut]

theorem length_of_cut? {delimiter cs before after : List Char} (hd : delimiter ≠ [])
    (h : cut? delimiter cs = some (before, after)) : after.length < cs.length := by
  have hlength := congrArg List.length (append_of_cut? h)
  have hpos := List.length_pos_iff.mpr hd
  simp only [List.length_append] at hlength
  omega

/-- The parts between the occurrences of a delimiter, which must not be empty. -/
def splitParts (delimiter cs : List Char) : List (List Char) :=
  match cut? delimiter cs with
  | none => [cs]
  | some (before, after) =>
    if after.length < cs.length then before :: splitParts delimiter after else [cs]
termination_by cs.length

theorem splitParts_of_cut? {delimiter cs before after : List Char} (hd : delimiter ≠ [])
    (h : cut? delimiter cs = some (before, after)) :
    splitParts delimiter cs = before :: splitParts delimiter after := by
  rw [splitParts, h]
  exact if_pos (length_of_cut? hd h)

theorem splitParts_of_cut?_eq_none {delimiter cs : List Char} (h : cut? delimiter cs = none) :
    splitParts delimiter cs = [cs] := by
  rw [splitParts, h]

end Reshape.Text
