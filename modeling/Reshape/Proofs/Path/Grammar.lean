import Mathlib.Data.Nat.Digits.Defs
import Reshape.Proofs.Path.Segments

/-! # The grammar of paths

A path is written as identifiers and brackets. Each item but the first has a dot
before it, which may be missing before a bracket. The reader accepts just the
texts of this grammar, and reads each item as one segment.
-/

namespace Reshape

namespace Path

def IsIdentifierStart (c : Char) : Prop := c.isAlpha ∨ c = '_' ∨ c = '$'

def IsIdentifierRest (c : Char) : Prop := c.isAlphanum ∨ c = '_' ∨ c = '$'

def IsIdentifier : List Char → Prop
  | [] => False
  | c :: cs => IsIdentifierStart c ∧ ∀ d ∈ cs, IsIdentifierRest d

def IsNumeral (digits : List Char) : Prop := digits ≠ [] ∧ ∀ c ∈ digits, c.isDigit

def numeralValue (digits : List Char) : Nat :=
  Nat.ofDigits 10 (digits.reverse.map fun c => c.toNat - '0'.toNat)

instance (c : Char) : Decidable (IsIdentifierStart c) := inferInstanceAs (Decidable (_ ∨ _))

instance (c : Char) : Decidable (IsIdentifierRest c) := inferInstanceAs (Decidable (_ ∨ _))

instance : (chars : List Char) → Decidable (IsIdentifier chars)
  | [] => inferInstanceAs (Decidable False)
  | _ :: cs => @instDecidableAnd _ _ inferInstance (List.decidableBAll _ cs)

instance (digits : List Char) : Decidable (IsNumeral digits) :=
  @instDecidableAnd _ _ inferInstance (List.decidableBAll _ digits)

/-- What a path is written with, apart from dots. -/
inductive Item where
  | identifier (chars : List Char)
  | bracket (digits : List Char)

namespace Item

def chars : Item → List Char
  | identifier chars => chars
  | bracket digits => '[' :: (digits ++ [']'])

def IsSelector : Item → Prop
  | identifier chars => chars.head? = some '$' ∧ IsNumeral chars.tail
  | bracket _ => False

instance : (item : Item) → Decidable item.IsSelector
  | identifier _ => inferInstanceAs (Decidable (_ ∧ _))
  | bracket _ => inferInstanceAs (Decidable False)

/-- The number of an index or a selector has 64 bits. -/
def WellFormed : Item → Prop
  | identifier chars =>
    IsIdentifier chars ∧ ((identifier chars).IsSelector → numeralValue chars.tail < 2 ^ 64)
  | bracket digits => digits ≠ [] → IsNumeral digits ∧ numeralValue digits < 2 ^ 64

instance : (item : Item) → Decidable item.WellFormed
  | identifier _ => inferInstanceAs (Decidable (_ ∧ _))
  | bracket _ => inferInstanceAs (Decidable (_ → _))

def segment : Item → Segment
  | bracket [] => .wildcard
  | bracket digits => .access (.index (numeralValue digits))
  | identifier chars =>
    if (identifier chars).IsSelector then .access (.argument (numeralValue chars.tail))
    else .access (.key (.ofList chars))

end Item

/--
What is written behind an item. A dot may be missing before a bracket but not
before an identifier, so an identifier goes on as long as its characters do.
-/
inductive Continues : List Char → List Item → Prop where
  | done : Continues [] []
  | dotted {item : Item} {rest : List Char} {items : List Item} :
    item.WellFormed → ¬ item.IsSelector → Continues rest items →
      Continues ('.' :: (item.chars ++ rest)) (item :: items)
  | attached {digits rest : List Char} {items : List Item} :
    (Item.bracket digits).WellFormed → Continues rest items →
      Continues ((Item.bracket digits).chars ++ rest) (.bracket digits :: items)

/-- A text is written with items; only the first of them may be a selector. -/
inductive Spells : List Char → List Item → Prop where
  | intro {item : Item} {rest : List Char} {items : List Item} :
    item.WellFormed → Continues rest items → Spells (item.chars ++ rest) (item :: items)

section Characters

theorem isDigit_eq (c : Char) : Numeral.isDigit c = c.isDigit := by
  simp [Numeral.isDigit, Char.isDigit, Char.le_def]

theorem isLetter_eq (c : Char) : isLetter c = c.isAlpha := by
  have hupper : c.isUpper = (decide ('A' ≤ c) && decide (c ≤ 'Z')) := Bool.decide_and _ _
  have hlower : c.isLower = (decide ('a' ≤ c) && decide (c ≤ 'z')) := rfl
  rw [isLetter, ← hupper, ← hlower]
  exact Bool.or_comm _ _

theorem isIdentifierStart_iff {c : Char} : isIdentifierStart c = true ↔ IsIdentifierStart c := by
  simp [isIdentifierStart, IsIdentifierStart, isLetter_eq, or_assoc]

theorem isIdentifierRest_iff {c : Char} : isIdentifierRest c = true ↔ IsIdentifierRest c := by
  rw [isIdentifierRest, Bool.or_eq_true, isIdentifierStart_iff, isDigit_eq, IsIdentifierStart,
    IsIdentifierRest, Char.isAlphanum, Bool.or_eq_true]
  tauto

theorem digitsValue_eq (digits : List Char) : Numeral.digitsValue digits = numeralValue digits := by
  rw [numeralValue, Nat.ofDigits_eq_foldr, List.foldr_map, List.foldr_reverse]
  simp only [Numeral.digitsValue, Numeral.digitValue, Nat.add_comm, Nat.cast_id]

theorem isNumeral_iff {digits : List Char} :
    IsNumeral digits ↔ (!digits.isEmpty && digits.all Numeral.isDigit) = true := by
  simp [IsNumeral, isDigit_eq]

theorem takeWhile_dropWhile_iff {p : Char → Bool} {cs run rest : List Char} :
    cs.takeWhile p = run ∧ cs.dropWhile p = rest ↔
      cs = run ++ rest ∧ (∀ c ∈ run, p c = true) ∧ ∀ c ∈ rest.head?, p c = false := by
  constructor
  · rintro ⟨rfl, rfl⟩
    refine ⟨List.takeWhile_append_dropWhile.symm, List.all_eq_true.mp List.all_takeWhile, ?_⟩
    intro c hc
    have h := List.head?_dropWhile_not p cs
    rwa [Option.mem_def.mp hc] at h
  · rintro ⟨rfl, hrun, hrest⟩
    rw [List.takeWhile_append_of_pos hrun, List.dropWhile_append_of_pos hrun]
    cases rest with
    | nil => simp
    | cons c rest => simp [hrest c rfl]

end Characters

section Items

theorem readIndex_map_eq_ok_iff {digits : List Char} {f : Nat → Segment} {segment : Segment} :
    (readIndex digits).map f = .ok segment ↔
      numeralValue digits < 2 ^ 64 ∧ f (numeralValue digits) = segment := by
  have hsize : UInt64.size = 2 ^ 64 := rfl
  rw [readIndex, digitsValue_eq, hsize]
  by_cases h : numeralValue digits < 2 ^ 64
  · rw [if_pos h, and_iff_right h, Except.map, Except.ok.injEq]
  · rw [if_neg h]
    exact ⟨nofun, fun hn => absurd hn.1 h⟩

theorem readBracket_eq_ok_iff {digits : List Char} {segment : Segment} :
    readBracket digits = .ok segment ↔
      (Item.bracket digits).WellFormed ∧ (Item.bracket digits).segment = segment := by
  cases digits with
  | nil => simp [readBracket, Item.WellFormed, Item.segment]
  | cons c cs =>
    have hall : (c :: cs).all Numeral.isDigit = true ↔ IsNumeral (c :: cs) := by
      simp [isNumeral_iff]
    simp only [readBracket, List.isEmpty_cons, Bool.false_eq_true, if_false, hall,
      Item.WellFormed, Item.segment, ne_eq, reduceCtorEq, not_false_eq_true, true_imp_iff]
    by_cases h : IsNumeral (c :: cs)
    · rw [if_pos h, readIndex_map_eq_ok_iff, and_iff_right h]
    · rw [if_neg h]
      exact ⟨nofun, fun hs => absurd hs.1.1 h⟩

theorem argumentDigits?_eq (chars : List Char) :
    argumentDigits? chars =
      if (Item.identifier chars).IsSelector then some chars.tail else none := by
  unfold argumentDigits?
  split
  · rename_i digits
    simp only [← isNumeral_iff, Item.IsSelector, List.head?_cons, List.tail_cons, true_and]
  · rename_i hne
    rw [if_neg]
    rintro ⟨hhead, _⟩
    obtain ⟨digits, rfl⟩ := List.head?_eq_some_iff.mp hhead
    exact hne digits rfl

theorem readIdentifier_eq_ok_iff {atStart : Bool} {chars : List Char} {segment : Segment}
    (h : IsIdentifier chars) :
    readIdentifier atStart chars = .ok segment ↔
      (Item.identifier chars).WellFormed ∧
        ((Item.identifier chars).IsSelector → atStart = true) ∧
        (Item.identifier chars).segment = segment := by
  rw [readIdentifier, argumentDigits?_eq, Item.WellFormed, Item.segment, and_iff_right h]
  by_cases hsel : (Item.identifier chars).IsSelector
  · cases atStart <;> simp [hsel, readIndex_map_eq_ok_iff]
  · simp [hsel]

end Items

section Steps

/-- An item that a cursor takes from a text, and what it leaves. -/
structure Takes (cur : Cursor) (item : Item) (cs rest : List Char) : Prop where
  text : cs = item.chars ++ rest
  wellFormed : item.WellFormed
  selector : item.IsSelector → cur.atStart = true
  /-- An identifier has to be expected, and is as long as it can be. -/
  identifier : ∀ chars, item = .identifier chars →
    cur.expecting = true ∧ ∀ c ∈ rest.head?, ¬ IsIdentifierRest c

def Cursor.past (cur : Cursor) (item : Item) (rest : List Char) : Step :=
  ⟨some item.segment, ⟨cur.offset + byteLength item.chars, false, false⟩, rest⟩

theorem byteLength_append (cs ds : List Char) :
    byteLength (cs ++ ds) = byteLength cs + byteLength ds := by
  induction cs with
  | nil => simp [byteLength]
  | cons c cs ih => simp [byteLength, ih, Nat.add_assoc]

theorem utf8Size_of_isIdentifierRest {c : Char} (h : IsIdentifierRest c) : c.utf8Size = 1 := by
  rw [Char.utf8Size_eq_one_iff, UInt32.le_iff_toNat_le]
  rcases h with h | rfl | rfl
  · rw [Char.isAlphanum, ← isLetter_eq, ← isDigit_eq] at h
    simp only [isLetter, Numeral.isDigit, Bool.or_eq_true, Bool.and_eq_true, decide_eq_true_eq,
      Char.le_def, UInt32.le_iff_toNat_le] at h
    have hZ : 'Z'.val.toNat = 90 := rfl
    have hz : 'z'.val.toNat = 122 := rfl
    have h9 : '9'.val.toNat = 57 := rfl
    have h127 : (127 : UInt32).toNat = 127 := rfl
    omega
  · decide
  · decide

theorem byteLength_identifier {cs : List Char} (h : ∀ c ∈ cs, IsIdentifierRest c) :
    byteLength cs = cs.length := by
  induction cs with
  | nil => rfl
  | cons c cs ih =>
    obtain ⟨hc, hcs⟩ := List.forall_mem_cons.mp h
    rw [byteLength, utf8Size_of_isIdentifierRest hc, ih hcs, List.length_cons, Nat.add_comm]

theorem IsIdentifierStart.isIdentifierRest {c : Char} (h : IsIdentifierStart c) :
    IsIdentifierRest c := by
  unfold IsIdentifierRest
  unfold IsIdentifierStart at h
  simp only [Char.isAlphanum, Bool.or_eq_true]
  tauto

theorem IsIdentifier.forall_isIdentifierRest {cs : List Char} (h : IsIdentifier cs) :
    ∀ c ∈ cs, IsIdentifierRest c := by
  cases cs with
  | nil => exact h.elim
  | cons c cs => exact List.forall_mem_cons.mpr ⟨h.1.isIdentifierRest, h.2⟩

theorem Item.ne_of_mem_bracket {digits : List Char} (h : (Item.bracket digits).WellFormed)
    {c : Char} (hc : c ∈ digits) : c ≠ ']' := by
  rintro rfl
  have hdigit := (h (List.ne_nil_of_mem hc)).1.2 _ hc
  exact absurd hdigit (by decide)

variable {cur : Cursor} {c : Char} {cs : List Char} {s : Step}

theorem Takes.bracket_head {digits rest : List Char}
    (h : Takes cur (.bracket digits) (c :: cs) rest) : c = '[' :=
  (List.cons.inj h.text).1

theorem Takes.identifier_head {chars rest : List Char}
    (h : Takes cur (.identifier chars) (c :: cs) rest) :
    ∃ more, chars = c :: more ∧ IsIdentifierStart c := by
  cases chars with
  | nil => exact h.wellFormed.1.elim
  | cons d more =>
    obtain rfl : c = d := (List.cons.inj h.text).1
    exact ⟨more, rfl, h.wellFormed.1.1⟩

theorem step_dot_eq_ok_iff :
    step cur '.' cs = .ok s ↔
      cur.expecting = false ∧ s = ⟨none, ⟨cur.offset + 1, true, cur.atStart⟩, cs⟩ := by
  cases h : cur.expecting <;> simp [step, h, eq_comm]

theorem step_bracket_eq_ok_iff :
    step cur '[' cs = .ok s ↔ ∃ digits rest,
      Takes cur (.bracket digits) ('[' :: cs) rest ∧ s = cur.past (.bracket digits) rest := by
  have hlength (digits : List Char) :
      byteLength (Item.bracket digits).chars = byteLength digits + 2 := by
    rw [Item.chars, byteLength, byteLength_append]
    exact Nat.add_comm 1 _
  rw [step, if_neg (by decide), if_pos rfl]
  constructor
  · intro h
    dsimp only at h
    split at h
    · cases h
    · rename_i close rest hrest
      obtain ⟨segment, hsegment, rfl⟩ := map_eq_ok_iff.mp h
      obtain ⟨htext, _, hclose⟩ := takeWhile_dropWhile_iff.mp ⟨rfl, hrest⟩
      obtain rfl : close = ']' := by simpa using hclose close rfl
      obtain ⟨hwf, rfl⟩ := readBracket_eq_ok_iff.mp hsegment
      refine ⟨_, rest, ⟨?_, hwf, False.elim, fun _ h => Item.noConfusion h⟩, ?_⟩
      · rw [Item.chars, List.cons_append, List.append_assoc]
        exact congrArg _ htext
      · rw [Cursor.past, hlength]
        rfl
  · rintro ⟨digits, rest, htakes, rfl⟩
    have htext : cs = digits ++ ']' :: rest := by
      simpa [Item.chars] using htakes.text
    obtain ⟨hrun, hrest⟩ := takeWhile_dropWhile_iff (p := (· ≠ ']')).mpr
      ⟨htext, fun c hc => by simpa using Item.ne_of_mem_bracket htakes.wellFormed hc, by simp⟩
    dsimp only
    rw [hrun, hrest, readBracket_eq_ok_iff.mpr ⟨htakes.wellFormed, rfl⟩, Cursor.past, hlength]
    rfl

theorem step_identifier_eq_ok_iff (hc : IsIdentifierStart c) :
    step cur c cs = .ok s ↔ ∃ chars rest,
      Takes cur (.identifier chars) (c :: cs) rest ∧ s = cur.past (.identifier chars) rest := by
  have hdot : c ≠ '.' := by
    rintro rfl
    exact absurd hc (by simp [IsIdentifierStart])
  have hopen : c ≠ '[' := by
    rintro rfl
    exact absurd hc (by simp [IsIdentifierStart])
  rw [step, if_neg hdot, if_neg hopen, if_pos (isIdentifierStart_iff.mpr hc)]
  constructor
  · intro h
    split at h
    · rename_i hexpecting
      obtain ⟨segment, hsegment, rfl⟩ := map_eq_ok_iff.mp h
      obtain ⟨htext, hrun, hrest⟩ := takeWhile_dropWhile_iff (p := isIdentifierRest) |>.mp
        (⟨rfl, rfl⟩ : cs.takeWhile isIdentifierRest = _ ∧ cs.dropWhile isIdentifierRest = _)
      simp only [isIdentifierRest_iff, ← Bool.not_eq_true] at hrun hrest
      have hchars : IsIdentifier (c :: cs.takeWhile isIdentifierRest) := ⟨hc, hrun⟩
      obtain ⟨hwf, hsel, rfl⟩ := (readIdentifier_eq_ok_iff hchars).mp hsegment
      refine ⟨_, _, ⟨congrArg (c :: ·) htext, hwf, hsel, fun _ _ => ⟨hexpecting, hrest⟩⟩, ?_⟩
      rw [Cursor.past, Item.chars, byteLength_identifier hchars.forall_isIdentifierRest]
    · cases h
  · rintro ⟨chars, rest, htakes, rfl⟩
    obtain ⟨hexpecting, hrest⟩ := htakes.identifier chars rfl
    obtain ⟨more, rfl, _⟩ := htakes.identifier_head
    have hchars : IsIdentifier (c :: more) := htakes.wellFormed.1
    have htext : cs = more ++ rest := (List.cons.inj htakes.text).2
    obtain ⟨hrun, hleft⟩ := takeWhile_dropWhile_iff (p := isIdentifierRest) |>.mpr
      ⟨htext, fun d hd => isIdentifierRest_iff.mpr (hchars.2 d hd),
        fun d hd => Bool.eq_false_iff.mpr fun h => hrest d hd (isIdentifierRest_iff.mp h)⟩
    have hread := (readIdentifier_eq_ok_iff hchars).mpr ⟨htakes.wellFormed, htakes.selector, rfl⟩
    rw [if_pos hexpecting]
    dsimp only
    rw [hrun, hleft, hread, Cursor.past, Item.chars,
      byteLength_identifier hchars.forall_isIdentifierRest]
    rfl

/-- A step takes an item, or a dot that is not the second. -/
theorem step_eq_ok_iff :
    step cur c cs = .ok s ↔
      (c = '.' ∧ cur.expecting = false ∧ s = ⟨none, ⟨cur.offset + 1, true, cur.atStart⟩, cs⟩) ∨
      ∃ item rest, Takes cur item (c :: cs) rest ∧ s = cur.past item rest := by
  constructor
  · intro h
    by_cases hdot : c = '.'
    · subst hdot
      exact .inl ⟨rfl, step_dot_eq_ok_iff.mp h⟩
    by_cases hopen : c = '['
    · subst hopen
      obtain ⟨digits, rest, htakes, rfl⟩ := step_bracket_eq_ok_iff.mp h
      exact .inr ⟨_, rest, htakes, rfl⟩
    by_cases hstart : IsIdentifierStart c
    · obtain ⟨chars, rest, htakes, rfl⟩ := (step_identifier_eq_ok_iff hstart).mp h
      exact .inr ⟨_, rest, htakes, rfl⟩
    · rw [step, if_neg hdot, if_neg hopen, if_neg (mt isIdentifierStart_iff.mp hstart)] at h
      cases h
  · rintro (⟨rfl, h⟩ | ⟨item, rest, htakes, rfl⟩)
    · exact step_dot_eq_ok_iff.mpr h
    · cases item with
      | bracket digits =>
        obtain rfl := htakes.bracket_head
        exact step_bracket_eq_ok_iff.mpr ⟨digits, rest, htakes, rfl⟩
      | identifier chars =>
        obtain ⟨_, _, hstart⟩ := htakes.identifier_head
        exact (step_identifier_eq_ok_iff hstart).mpr ⟨chars, rest, htakes, rfl⟩

end Steps

section Runs

variable {cur : Cursor} {cs : List Char} {segments : List Segment}

theorem readSegments_cons_eq_ok_iff {c : Char} :
    readSegments cur (c :: cs) = .ok segments ↔
      ∃ s, step cur c cs = .ok s ∧ ∃ more, readSegments s.cursor s.rest = .ok more ∧
        s.segment?.toList ++ more = segments := by
  rw [readSegments]
  split
  · rename_i fault h
    simp [h]
  · rename_i s h
    simp only [h, Except.ok.injEq, exists_eq_left']
    exact map_eq_ok_iff

def Cursor.Admits (cur : Cursor) (cs : List Char) (items : List Item) : Prop :=
  if cur.expecting then
    ∃ item rest more, items = item :: more ∧ cs = item.chars ++ rest ∧ item.WellFormed ∧
      (item.IsSelector → cur.atStart = true) ∧ Continues rest more
  else Continues cs items

theorem Continues.head {items : List Item} (h : Continues cs items) :
    ∀ c ∈ cs.head?, ¬ IsIdentifierRest c := by
  cases h with
  | done => simp
  | dotted => simp [IsIdentifierRest]
  | attached => simp [Item.chars, IsIdentifierRest]

theorem Takes.admits {item : Item} {rest : List Char} {items : List Item}
    (h : Takes cur item cs rest) (hrest : Continues rest items) :
    cur.Admits cs (item :: items) := by
  rw [Cursor.Admits]
  split
  · exact ⟨item, rest, items, rfl, h.text, h.wellFormed, h.selector, hrest⟩
  · rename_i hexpecting
    rw [h.text]
    cases item with
    | identifier chars => exact absurd (h.identifier chars rfl).1 hexpecting
    | bracket digits => exact .attached h.wellFormed hrest

theorem admits_of_readSegments (hcur : cur.atStart = true → cur.expecting = true)
    (h : readSegments cur cs = .ok segments) :
    ∃ items, cur.Admits cs items ∧ items.map Item.segment = segments := by
  induction hn : cs.length using Nat.strong_induction_on generalizing cur cs segments with
  | _ n ih =>
    cases cs with
    | nil =>
      rw [readSegments] at h
      split at h
      · cases h
      · rename_i hexpecting
        obtain rfl := Except.ok.inj h
        exact ⟨[], by rw [Cursor.Admits, if_neg hexpecting]; exact .done, rfl⟩
    | cons c cs =>
      obtain ⟨s, hs, more, hmore, rfl⟩ := readSegments_cons_eq_ok_iff.mp h
      have hlt : s.rest.length < n := hn ▸ Nat.lt_succ_of_le (step_rest_length hs)
      rcases step_eq_ok_iff.mp hs with ⟨rfl, hexpecting, rfl⟩ | ⟨item, rest, htakes, rfl⟩
      · obtain ⟨_, ⟨item, rest, items, rfl, htext, hwf, hsel, hrest⟩, rfl⟩ :=
          ih _ hlt (fun _ => rfl) hmore rfl
        dsimp only at htext hsel
        refine ⟨item :: items, ?_, rfl⟩
        rw [Cursor.Admits, if_neg (by simp [hexpecting]), htext]
        exact .dotted hwf (fun h => absurd (hcur (hsel h)) (by simp [hexpecting])) hrest
      · obtain ⟨items, hitems, rfl⟩ := ih _ hlt (absurd · Bool.false_ne_true) hmore rfl
        exact ⟨item :: items, htakes.admits hitems, rfl⟩

theorem Item.chars_ne_nil {item : Item} (h : item.WellFormed) : item.chars ≠ [] := by
  cases item with
  | identifier chars =>
    rintro rfl
    exact h.1
  | bracket digits => exact List.cons_ne_nil _ _

theorem Takes.of_continues {item : Item} {rest : List Char} {items : List Item}
    (hwf : item.WellFormed) (hsel : item.IsSelector → cur.atStart = true)
    (hexpecting : cur.expecting = true) (hrest : Continues rest items) :
    Takes cur item (item.chars ++ rest) rest :=
  ⟨rfl, hwf, hsel, fun _ _ => ⟨hexpecting, hrest.head⟩⟩

theorem Takes.readSegments_eq_ok {item : Item} {rest : List Char} (h : Takes cur item cs rest)
    (hrest : ∀ offset, readSegments ⟨offset, false, false⟩ rest = .ok segments) :
    readSegments cur cs = .ok (item.segment :: segments) := by
  cases cs with
  | nil =>
    have hnil := (List.append_eq_nil_iff.mp h.text.symm).1
    exact absurd hnil (Item.chars_ne_nil h.wellFormed)
  | cons c cs =>
    have hstep := step_eq_ok_iff.mpr (.inr ⟨item, rest, h, rfl⟩)
    exact readSegments_cons_eq_ok_iff.mpr ⟨_, hstep, segments, hrest _, rfl⟩

theorem readSegments_of_continues {items : List Item} (h : Continues cs items) (offset : Nat) :
    readSegments ⟨offset, false, false⟩ cs = .ok (items.map Item.segment) := by
  induction h generalizing offset with
  | done => simp [readSegments]
  | dotted hwf hsel hrest ih =>
    have htakes : Takes ⟨offset + 1, true, false⟩ _ _ _ :=
      .of_continues hwf (fun h => absurd h hsel) rfl hrest
    exact readSegments_cons_eq_ok_iff.mpr
      ⟨_, step_dot_eq_ok_iff.mpr ⟨rfl, rfl⟩, _, htakes.readSegments_eq_ok ih, rfl⟩
  | @attached digits rest _ hwf hrest ih =>
    have htakes : Takes ⟨offset, false, false⟩ (.bracket digits) _ rest :=
      ⟨rfl, hwf, False.elim, fun _ h => Item.noConfusion h⟩
    exact htakes.readSegments_eq_ok ih

theorem spells_iff_admits {items : List Item} :
    Spells cs items ↔ Cursor.Admits ⟨0, true, true⟩ cs items := by
  constructor
  · rintro ⟨hwf, hrest⟩
    exact ⟨_, _, _, rfl, rfl, hwf, fun _ => rfl, hrest⟩
  · rintro ⟨item, rest, more, rfl, rfl, hwf, _, hrest⟩
    exact .intro hwf hrest

/-- A text is read if it is written with items, as the segments of these. -/
theorem parseSegments_eq_ok_iff {text : String} :
    parseSegments text = .ok segments ↔
      ∃ items, Spells text.toList items ∧ items.map Item.segment = segments := by
  have hread : parseSegments text = .ok segments ↔
      readSegments ⟨0, true, true⟩ text.toList = .ok segments := by
    rw [parseSegments]
    split
    · rename_i h
      rw [String.isEmpty_iff.mp h]
      simp [readSegments]
    · rfl
  rw [hread]
  constructor
  · intro h
    obtain ⟨items, hitems, hsegments⟩ := admits_of_readSegments (fun _ => rfl) h
    exact ⟨items, spells_iff_admits.mpr hitems, hsegments⟩
  · rintro ⟨items, h, rfl⟩
    generalize text.toList = cs at h
    obtain ⟨hwf, hrest⟩ := h
    have htakes : Takes ⟨0, true, true⟩ _ _ _ := .of_continues hwf (fun _ => rfl) rfl hrest
    exact htakes.readSegments_eq_ok (readSegments_of_continues hrest)

end Runs

/--
A text is a path if it is written with items, and the items are then its
segments. Any other text is refused as a path.
-/
theorem read_decides_grammar (text : String) :
    ((∃ p, Path.read text = .ok p) ↔ ∃ items, Spells text.toList items) ∧
    (∀ p, Path.read text = .ok p → ∀ items, Spells text.toList items →
      p.text = text ∧
        [Segment.wildcard].intercalate (p.chunks.map (List.map .access)) =
          items.map Item.segment) ∧
    ∀ e, Path.read text = .error e → ∃ reason, e = .invalidPath text reason := by
  refine ⟨⟨?_, ?_⟩, fun p hp items hitems => ?_, fun e he => ?_⟩
  · rintro ⟨p, hp⟩
    obtain ⟨items, hitems, _⟩ := parseSegments_eq_ok_iff.mp (read_eq_ok_iff.mp hp).2
    exact ⟨items, hitems⟩
  · rintro ⟨items, hitems⟩
    have hsegments := parseSegments_eq_ok_iff.mpr ⟨items, hitems, rfl⟩
    obtain ⟨p, hp, _⟩ := exists_read_of_parseSegments hsegments
    exact ⟨p, hp⟩
  · obtain ⟨htext, hsegments⟩ := read_eq_ok_iff.mp hp
    have hread := parseSegments_eq_ok_iff.mpr ⟨items, hitems, rfl⟩
    rw [← segments_eq_intercalate]
    exact ⟨htext, Except.ok.inj (hsegments.symm.trans hread)⟩
  · obtain ⟨reason, _, rfl⟩ := read_eq_error_iff.mp he
    exact ⟨reason, rfl⟩

theorem read_decides_grammar_arguments :
    (∃ p, Path.read "$01[2].[]" = .ok p ∧
      [Segment.wildcard].intercalate (p.chunks.map (List.map .access)) =
        [.access (.argument 1), .access (.index 2), .wildcard]) ∧
    ¬ ∃ items, Spells "a.$1".toList items := by
  constructor
  · have hspells : Spells "$01[2].[]".toList
        [.identifier ['$', '0', '1'], .bracket ['2'], .bracket []] := by
      have hlast : Continues ['.', '[', ']'] [.bracket []] :=
        @Continues.dotted (.bracket []) [] [] (by decide) (by decide) .done
      have hmore := @Continues.attached ['2'] _ _ (by decide) hlast
      exact @Spells.intro (.identifier ['$', '0', '1']) _ _ (by decide) hmore
    obtain ⟨hiff, hsegments, _⟩ := read_decides_grammar "$01[2].[]"
    obtain ⟨p, hp⟩ := hiff.mpr ⟨_, hspells⟩
    exact ⟨p, hp, (hsegments p hp _ hspells).2⟩
  · rw [← (read_decides_grammar "a.$1").1, ← failure?_eq_none_iff]
    decide +kernel

end Path

end Reshape
