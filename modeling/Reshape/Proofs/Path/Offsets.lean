import Reshape.Proofs.Path.Grammar

/-! # Where a path goes wrong

A fault with an offset is one of the character there. What is read in front of it
is the beginning of some path, and with that character it is the beginning of
none; only a bracket that is not closed may still be closed in another text.
-/

namespace Reshape

def Malformed.offset? : Malformed → Option Nat
  | emptySegment offset => some offset
  | unclosedBracket offset => some offset
  | missingDot offset => some offset
  | unexpected _ offset => some offset
  | _ => none

namespace Path

/-- Some path begins with these characters. -/
def Viable (cs : List Char) : Prop := ∃ text p, Path.read text = .ok p ∧ cs <+: text.toList

/--
Characters that are read from a cursor on, up to another one, where `next` is the
character behind them. An identifier has to end in front of what follows it.
-/
inductive Cursor.Reads (next : Option Char) : Cursor → List Char → Cursor → Prop where
  | done {cur : Cursor} : Reads next cur [] cur
  | dot {cur stop : Cursor} {run : List Char} :
    cur.expecting = false → Reads next ⟨cur.offset + 1, true, cur.atStart⟩ run stop →
      Reads next cur ('.' :: run) stop
  | item {cur stop : Cursor} {item : Item} {run : List Char} :
    item.WellFormed → (item.IsSelector → cur.atStart = true) →
      (∀ chars, item = .identifier chars →
        cur.expecting = true ∧ ∀ c ∈ run.head?.or next, ¬ IsIdentifierRest c) →
      Reads next ⟨cur.offset + byteLength item.chars, false, false⟩ run stop →
      Reads next cur (item.chars ++ run) stop

section Runs

variable {cur stop : Cursor} {cs run rest : List Char} {reason : Malformed}

theorem readSegments_cons_eq_error_iff {c : Char} :
    readSegments cur (c :: cs) = .error reason ↔
      step cur c cs = .error reason ∨
        ∃ s, step cur c cs = .ok s ∧ readSegments s.cursor s.rest = .error reason := by
  rw [readSegments]
  split
  · rename_i fault h
    simp [h]
  · rename_i s h
    cases hread : readSegments s.cursor s.rest <;> simp [h, hread, Except.map]

/-- What cannot be read is read up to a step that fails, unless it ends with a dot. -/
theorem exists_reads_of_readSegments_eq_error (h : readSegments cur cs = .error reason) :
    reason = .trailingDot ∨ ∃ run c rest stop, cs = run ++ c :: rest ∧
      cur.Reads (some c) run stop ∧ step stop c rest = .error reason := by
  induction hn : cs.length using Nat.strong_induction_on generalizing cur cs with
  | _ n ih =>
    cases cs with
    | nil =>
      rw [readSegments] at h
      split at h
      · exact .inl (Except.error.inj h).symm
      · cases h
    | cons c cs =>
      rcases readSegments_cons_eq_error_iff.mp h with hstep | ⟨s, hs, hread⟩
      · exact .inr ⟨[], c, cs, cur, rfl, .done, hstep⟩
      have hlt : s.rest.length < n := hn ▸ Nat.lt_succ_of_le (step_rest_length hs)
      refine (ih _ hlt hread rfl).imp id ?_
      rintro ⟨run, d, rest, stop, hrest, hreads, hstep⟩
      rcases step_eq_ok_iff.mp hs with ⟨rfl, hexpecting, rfl⟩ | ⟨item, after, htakes, rfl⟩
      · obtain rfl : cs = run ++ d :: rest := hrest
        exact ⟨'.' :: run, d, rest, stop, rfl, .dot hexpecting hreads, hstep⟩
      · obtain rfl : after = run ++ d :: rest := hrest
        refine ⟨item.chars ++ run, d, rest, stop, ?_, ?_, hstep⟩
        · rw [htakes.text, List.append_assoc]
        · refine .item htakes.wellFormed htakes.selector (fun chars hchars => ?_) hreads
          have hmunch := htakes.identifier chars hchars
          rwa [List.head?_append] at hmunch

variable {next : Option Char}

theorem Cursor.Reads.offset_eq (h : cur.Reads next run stop) :
    stop.offset = cur.offset + byteLength run := by
  induction h with
  | done => rfl
  | dot _ _ ih => rw [ih, byteLength, Nat.add_assoc]; rfl
  | item _ _ _ _ ih => rw [ih, byteLength_append, Nat.add_assoc]

theorem Cursor.Reads.readSegments_eq_ok (h : cur.Reads rest.head? run stop)
    {segments : List Segment} (hread : readSegments cur (run ++ rest) = .ok segments) :
    ∃ more, readSegments stop rest = .ok more := by
  induction h generalizing segments with
  | done => exact ⟨segments, hread⟩
  | @dot cur stop run hexpecting _ ih =>
    rw [List.cons_append] at hread
    obtain ⟨s, hs, more, hmore, _⟩ := readSegments_cons_eq_ok_iff.mp hread
    obtain ⟨_, rfl⟩ := step_dot_eq_ok_iff.mp hs
    exact ih hmore
  | @item cur stop item run hwf hsel hmunch _ ih =>
    have htakes : Takes cur item (item.chars ++ (run ++ rest)) (run ++ rest) := by
      refine ⟨rfl, hwf, hsel, fun chars hchars => ?_⟩
      rw [List.head?_append]
      exact hmunch chars hchars
    obtain ⟨c, cs, hchars⟩ := List.exists_cons_of_ne_nil (Item.chars_ne_nil hwf)
    rw [List.append_assoc, hchars, List.cons_append] at hread
    rw [hchars, List.cons_append] at htakes
    obtain ⟨s, hs, more, hmore, _⟩ := readSegments_cons_eq_ok_iff.mp hread
    rw [step_eq_ok_iff.mpr (.inr ⟨item, _, htakes, rfl⟩)] at hs
    obtain rfl := Except.ok.inj hs
    exact ih hmore

theorem Cursor.Reads.admits (h : cur.Reads next run stop)
    (hcur : cur.atStart = true → cur.expecting = true) {items : List Item}
    (hrest : stop.Admits rest items) : ∃ more, cur.Admits (run ++ rest) more := by
  induction h with
  | done => exact ⟨items, hrest⟩
  | @dot cur stop run hexpecting _ ih =>
    obtain ⟨_, item, after, more, rfl, htext, hwf, hsel, hafter⟩ := ih (fun _ => rfl) hrest
    refine ⟨item :: more, ?_⟩
    rw [Cursor.Admits, if_neg (by simp [hexpecting]), List.cons_append, htext]
    exact .dotted hwf (fun h => absurd (hcur (hsel h)) (by simp [hexpecting])) hafter
  | @item cur stop item run hwf hsel hmunch _ ih =>
    obtain ⟨more, hmore⟩ := ih (absurd · Bool.false_ne_true) hrest
    have hcontinues : Continues (run ++ rest) more := hmore
    have htakes : Takes cur item (item.chars ++ run ++ rest) (run ++ rest) :=
      ⟨List.append_assoc .., hwf, hsel, fun chars hchars =>
        ⟨(hmunch chars hchars).1, hcontinues.head⟩⟩
    exact ⟨item :: more, htakes.admits hcontinues⟩

theorem Cursor.exists_admits (cur : Cursor) : ∃ rest items, cur.Admits rest items := by
  cases h : cur.expecting with
  | false => exact ⟨[], [], by rw [Admits, if_neg (by simp [h])]; exact .done⟩
  | true =>
    refine ⟨['a'], [.identifier ['a']], ?_⟩
    rw [Admits, if_pos h]
    exact ⟨_, [], [], rfl, rfl, by decide, fun hsel => absurd hsel (by decide), .done⟩

end Runs

section Faults

variable {cur : Cursor} {c : Char} {cs : List Char} {reason : Malformed} {n : Nat}

theorem offset?_of_readIndex {digits : List Char} {f : Nat → Segment}
    (h : (readIndex digits).map f = .error reason) : reason.offset? = none := by
  unfold readIndex at h
  dsimp only at h
  split at h
  · cases h
  · obtain rfl := Except.error.inj h
    rfl

theorem offset?_of_readBracket {inner : List Char} (h : readBracket inner = .error reason) :
    reason.offset? = none := by
  unfold readBracket at h
  split at h
  · cases h
  · split at h
    · exact offset?_of_readIndex h
    · obtain rfl := Except.error.inj h
      rfl

theorem offset?_of_readIdentifier {atStart : Bool} {identifier : List Char}
    (h : readIdentifier atStart identifier = .error reason) : reason.offset? = none := by
  unfold readIdentifier at h
  split at h
  · cases h
  · split at h
    · exact offset?_of_readIndex h
    · obtain rfl := Except.error.inj h
      rfl

theorem map_eq_error_iff {α β : Type} {x : Except Malformed α} {f : α → β} :
    x.map f = .error reason ↔ x = .error reason := by
  cases x <;> simp [Except.map]

theorem step_dot_eq_error (h : step cur '.' cs = .error reason) :
    reason = .emptySegment cur.offset ∧ cur.expecting = true := by
  rw [step, if_pos rfl] at h
  split at h
  · rename_i hexpecting
    exact ⟨(Except.error.inj h).symm, hexpecting⟩
  · cases h

theorem step_bracket_eq_error (h : step cur '[' cs = .error reason) (hn : reason.offset? = some n) :
    reason = .unclosedBracket cur.offset ∧ ']' ∉ cs := by
  rw [step, if_neg (by decide), if_pos rfl] at h
  dsimp only at h
  split at h
  · rename_i hrest
    refine ⟨(Except.error.inj h).symm, fun hmem => ?_⟩
    obtain ⟨htext, hopen, _⟩ := takeWhile_dropWhile_iff.mp ⟨rfl, hrest⟩
    rw [htext, List.append_nil] at hmem
    exact absurd (hopen ']' hmem) (by decide)
  · rw [offset?_of_readBracket (map_eq_error_iff.mp h)] at hn
    cases hn

theorem step_identifier_eq_error (hc : IsIdentifierStart c) (h : step cur c cs = .error reason)
    (hn : reason.offset? = some n) :
    reason = .missingDot cur.offset ∧ cur.expecting = false := by
  have hdot : c ≠ '.' := by
    rintro rfl
    exact absurd hc (by decide)
  have hopen : c ≠ '[' := by
    rintro rfl
    exact absurd hc (by decide)
  rw [step, if_neg hdot, if_neg hopen, if_pos (isIdentifierStart_iff.mpr hc)] at h
  split at h
  · rw [offset?_of_readIdentifier (map_eq_error_iff.mp h)] at hn
    cases hn
  · rename_i hexpecting
    exact ⟨(Except.error.inj h).symm, Bool.eq_false_iff.mpr hexpecting⟩

/--
A fault with an offset is one of the character where the step begins. Either no
step at all can be made with it there, or it opens a bracket that is not closed.
-/
theorem step_eq_error_cases (h : step cur c cs = .error reason) (hn : reason.offset? = some n) :
    n = cur.offset ∧ (∀ d m, reason = .unexpected d m → c = d) ∧
      ((∃ m, reason = .unclosedBracket m) ∧ c = '[' ∧ ']' ∉ cs ∨
        (∀ m, reason ≠ .unclosedBracket m) ∧ ∀ cs s, step cur c cs ≠ .ok s) := by
  by_cases hdot : c = '.'
  · subst hdot
    obtain ⟨rfl, hexpecting⟩ := step_dot_eq_error h
    refine ⟨(Option.some.inj hn).symm, by simp, .inr ⟨by simp, fun cs s hs => ?_⟩⟩
    rw [(step_dot_eq_ok_iff.mp hs).1] at hexpecting
    cases hexpecting
  by_cases hopen : c = '['
  · subst hopen
    obtain ⟨rfl, hclose⟩ := step_bracket_eq_error h hn
    exact ⟨(Option.some.inj hn).symm, by simp, .inl ⟨⟨_, rfl⟩, rfl, hclose⟩⟩
  by_cases hstart : IsIdentifierStart c
  · obtain ⟨rfl, hexpecting⟩ := step_identifier_eq_error hstart h hn
    refine ⟨(Option.some.inj hn).symm, by simp, .inr ⟨by simp, fun cs s hs => ?_⟩⟩
    obtain ⟨chars, rest, htakes, _⟩ := (step_identifier_eq_ok_iff hstart).mp hs
    rw [(htakes.identifier chars rfl).1] at hexpecting
    cases hexpecting
  · have hother : ∀ cs, step cur c cs = .error (.unexpected c cur.offset) := by
      intro cs
      rw [step, if_neg hdot, if_neg hopen, if_neg (mt isIdentifierStart_iff.mp hstart)]
    rw [hother] at h
    obtain rfl := Except.error.inj h
    refine ⟨(Option.some.inj hn).symm, fun d m hd => (Malformed.unexpected.inj hd).1,
      .inr ⟨by simp, fun cs s hs => ?_⟩⟩
    rw [hother] at hs
    cases hs

end Faults

section Texts

variable {run rest : List Char} {stop : Cursor}

theorem parseSegments_eq_readSegments {text : String} (h : text ≠ "") :
    parseSegments text = readSegments ⟨0, true, true⟩ text.toList := by
  rw [parseSegments, if_neg (by simpa using h)]

/-- All that is read from the start is the beginning of a path. -/
theorem viable_of_reads {next : Option Char} (h : Cursor.Reads next ⟨0, true, true⟩ run stop) :
    Viable run := by
  obtain ⟨rest, items, hrest⟩ := stop.exists_admits
  obtain ⟨more, hmore⟩ := h.admits (fun _ => rfl) hrest
  have hspells : Spells (String.ofList (run ++ rest)).toList more := by
    rw [String.toList_ofList]
    exact spells_iff_admits.mpr hmore
  have hparse := parseSegments_eq_ok_iff.mpr ⟨more, hspells, rfl⟩
  obtain ⟨p, hp, _⟩ := exists_read_of_parseSegments hparse
  refine ⟨_, p, hp, ?_⟩
  rw [String.toList_ofList]
  exact List.prefix_append run rest

/-- A character is no part of a path where every step with it fails. -/
theorem not_viable_of_reads {c : Char} (h : Cursor.Reads (some c) ⟨0, true, true⟩ run stop)
    (hstep : ∀ cs s, step stop c cs ≠ .ok s) : ¬ Viable (run ++ [c]) := by
  rintro ⟨text, p, hp, rest, hrest⟩
  have htext : text.toList = run ++ c :: rest := by
    rw [← hrest, List.append_assoc, List.singleton_append]
  have hne : text ≠ "" := by
    rintro rfl
    simp at htext
  have hsegments := (read_eq_ok_iff.mp hp).2
  rw [parseSegments_eq_readSegments hne, htext] at hsegments
  have hreads : Cursor.Reads (c :: rest).head? ⟨0, true, true⟩ run stop := h
  obtain ⟨more, hmore⟩ := hreads.readSegments_eq_ok hsegments
  obtain ⟨s, hs, _⟩ := readSegments_cons_eq_ok_iff.mp hmore
  exact hstep rest s hs

theorem utf8ByteSize_ofList (cs : List Char) :
    (String.ofList cs).utf8ByteSize = byteLength cs := by
  induction cs with
  | nil => rfl
  | cons c cs ih =>
    rw [String.ofList_cons, String.utf8ByteSize_append, String.utf8ByteSize_singleton, ih,
      byteLength]

end Texts

/--
The offset of a fault counts the bytes in front of a character of the text. Up to
there the text is the beginning of a path. With that character, which is the one
that is named, it is the beginning of none; but a bracket that is not closed is
one without a closing bracket anywhere behind it.
-/
theorem offset_marks_first_fault {text : String} {reason : Malformed} {n : Nat}
    (h : Path.read text = .error (.invalidPath text reason)) (hn : reason.offset? = some n) :
    ∃ before c after, text.toList = before ++ c :: after ∧
      (String.ofList before).utf8ByteSize = n ∧ Viable before ∧
      (∀ d, reason = .unexpected d n → c = d) ∧
      (reason ≠ .unclosedBracket n → ¬ Viable (before ++ [c])) ∧
      (reason = .unclosedBracket n → c = '[' ∧ ']' ∉ after) := by
  obtain ⟨_, hparse, heq⟩ := read_eq_error_iff.mp h
  obtain ⟨_, rfl⟩ := Error.invalidPath.inj heq
  have hne : text ≠ "" := by
    rintro rfl
    obtain rfl := Except.error.inj hparse
    cases hn
  rw [parseSegments_eq_readSegments hne] at hparse
  rcases exists_reads_of_readSegments_eq_error hparse with rfl | hreads
  · cases hn
  obtain ⟨before, c, after, stop, htext, hreads, hstep⟩ := hreads
  obtain ⟨rfl, hnamed, hfault⟩ := step_eq_error_cases hstep hn
  refine ⟨before, c, after, htext, ?_, viable_of_reads hreads, fun d => hnamed d _, ?_, ?_⟩
  · rw [utf8ByteSize_ofList, hreads.offset_eq, Nat.zero_add]
  · intro hreason
    rcases hfault with ⟨⟨m, rfl⟩, _⟩ | ⟨_, hrefused⟩
    · obtain rfl := Option.some.inj hn
      exact absurd rfl hreason
    · exact not_viable_of_reads hreads hrefused
  · rintro rfl
    rcases hfault with ⟨_, hbracket⟩ | ⟨hclosed, _⟩
    · exact hbracket
    · exact absurd rfl (hclosed _)

theorem offset_marks_first_fault_accent :
    Path.read "$0[2].été" = .error (.invalidPath "$0[2].été" (.unexpected 'é' 6)) ∧
      Path.read "a.b[1.c" = .error (.invalidPath "a.b[1.c" (.unclosedBracket 3)) ∧
      (∃ before after, "$0[2].été".toList = before ++ 'é' :: after ∧
        (String.ofList before).utf8ByteSize = 6 ∧ Viable before ∧ ¬ Viable (before ++ ['é'])) ∧
      ∃ before after, "a.b[1.c".toList = before ++ '[' :: after ∧
        (String.ofList before).utf8ByteSize = 3 ∧ Viable before ∧ ']' ∉ after := by
  have hletter : Path.read "$0[2].été" = .error (.invalidPath "$0[2].été" (.unexpected 'é' 6)) := by
    decide +kernel
  have hopen : Path.read "a.b[1.c" = .error (.invalidPath "a.b[1.c" (.unclosedBracket 3)) := by
    decide +kernel
  refine ⟨hletter, hopen, ?_, ?_⟩
  · obtain ⟨before, c, after, htext, hsize, hviable, hnamed, hrefused, _⟩ :=
      offset_marks_first_fault hletter rfl
    obtain rfl := hnamed 'é' rfl
    exact ⟨before, after, htext, hsize, hviable, hrefused nofun⟩
  · obtain ⟨before, c, after, htext, hsize, hviable, _, _, hbracket⟩ :=
      offset_marks_first_fault hopen rfl
    obtain ⟨rfl, hclose⟩ := hbracket rfl
    exact ⟨before, after, htext, hsize, hviable, hclose⟩

end Path

end Reshape
