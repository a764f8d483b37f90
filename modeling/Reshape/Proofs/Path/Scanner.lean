import Reshape.Proofs.Documents.Sorting
import Reshape.Proofs.Path.Offsets

/-! # Scanning bytes

The reader of paths as a loop over the bytes of a text, which looks at single
bytes and cuts out slices between two positions. A byte behind the end is none to
look at, and a slice that cuts a character in two is none of a text. The scanner
never comes to either, as each of its rounds begins in front of a character, and
it reads what the reader of characters does.
-/

namespace Reshape

/-- What ends a scan without the segments of a path. -/
inductive Halt where
  /-- A byte is looked at where there is none. -/
  | noByte (pos : Nat)
  /-- A slice is taken that no text can have. -/
  | noSlice (start stop : Nat)
  | malformed (reason : Malformed)
deriving DecidableEq

namespace Path

/-- Positions of a text with whole characters between them. -/
structure Sliceable (text : String) (start stop : Nat) : Prop where
  ordered : start ≤ stop
  inside : stop ≤ text.utf8ByteSize
  validStart : String.Pos.Raw.IsValid text ⟨start⟩
  validStop : String.Pos.Raw.IsValid text ⟨stop⟩

instance (text : String) (start stop : Nat) : Decidable (Sliceable text start stop) :=
  decidable_of_iff (start ≤ stop ∧ stop ≤ text.utf8ByteSize ∧
      String.Pos.Raw.IsValid text ⟨start⟩ ∧ String.Pos.Raw.IsValid text ⟨stop⟩)
    ⟨fun ⟨h₁, h₂, h₃, h₄⟩ => ⟨h₁, h₂, h₃, h₄⟩, fun ⟨h₁, h₂, h₃, h₄⟩ => ⟨h₁, h₂, h₃, h₄⟩⟩

def byteAt (text : String) (pos : Nat) : Except Halt UInt8 :=
  match (octets text)[pos]? with
  | some b => .ok b
  | none => .error (.noByte pos)

/-- The text from one position up to another. -/
def slice (text : String) (start stop : Nat) : Except Halt String :=
  if h : Sliceable text start stop then
    .ok (text.extract (text.pos ⟨start⟩ h.validStart) (text.pos ⟨stop⟩ h.validStop))
  else .error (.noSlice start stop)

def isLetterByte (b : UInt8) : Bool :=
  ('a'.toUInt8 ≤ b && b ≤ 'z'.toUInt8) || ('A'.toUInt8 ≤ b && b ≤ 'Z'.toUInt8)

def isDigitByte (b : UInt8) : Bool := '0'.toUInt8 ≤ b && b ≤ '9'.toUInt8

def isIdentifierStartByte (b : UInt8) : Bool :=
  isLetterByte b || b == '_'.toUInt8 || b == '$'.toUInt8

def isIdentifierRestByte (b : UInt8) : Bool := isIdentifierStartByte b || isDigitByte b

def hasDigitsOnly (s : String) : Bool := (octets s).all isDigitByte

/-- The number of bytes in front of the first closing bracket. -/
def closing? : List Char → Option Nat
  | [] => none
  | c :: cs => if c = ']' then some 0 else (closing? cs).map fun n => c.utf8Size + n

def sliceBracket (inner : String) : Except Malformed Segment :=
  if inner.isEmpty then .ok .wildcard
  else if hasDigitsOnly inner then
    (readIndex inner.toList).map fun n => .access (.index n)
  else .error (.invalidIndex inner)

def sliceDigits? (identifier : String) : Option String :=
  match identifier.toList with
  | '$' :: digits =>
    let digits := String.ofList digits
    if !digits.isEmpty && hasDigitsOnly digits then some digits else none
  | _ => none

def sliceIdentifier (atStart : Bool) (identifier : String) : Except Malformed Segment :=
  match sliceDigits? identifier with
  | none => .ok (.access (.key identifier))
  | some digits =>
    if atStart then (readIndex digits.toList).map fun n => .access (.argument n)
    else .error (.lateArgument identifier)

def identifierEnd (text : String) (pos : Nat) : Except Halt Nat :=
  if pos < text.utf8ByteSize then
    match byteAt text pos with
    | .error halt => .error halt
    | .ok b => if isIdentifierRestByte b then identifierEnd text (pos + 1) else .ok pos
  else .ok pos
termination_by text.utf8ByteSize - pos

/-- What a scan has come to. -/
structure Scanner where
  pos : Nat
  /-- Whether nothing, or a dot, has been scanned last. -/
  expecting : Bool
  segments : List Segment

namespace Scanner

def start : Scanner := ⟨0, true, []⟩

/-- One round of a scan. -/
def advance (text : String) (s : Scanner) : Except Halt Scanner := do
  let b ← byteAt text s.pos
  if b = '.'.toUInt8 then
    if s.expecting then .error (.malformed (.emptySegment s.pos))
    else .ok { s with pos := s.pos + 1, expecting := true }
  else if b = '['.toUInt8 then
    let rest ← slice text s.pos text.utf8ByteSize
    match closing? rest.toList with
    | none => .error (.malformed (.unclosedBracket s.pos))
    | some offset =>
      let inner ← slice text (s.pos + 1) (s.pos + offset)
      let segment ← (sliceBracket inner).mapError .malformed
      .ok ⟨s.pos + offset + 1, false, s.segments ++ [segment]⟩
  else if isIdentifierStartByte b then
    if s.expecting then
      let stop ← identifierEnd text (s.pos + 1)
      let identifier ← slice text s.pos stop
      let segment ← (sliceIdentifier s.segments.isEmpty identifier).mapError .malformed
      .ok ⟨stop, false, s.segments ++ [segment]⟩
    else .error (.malformed (.missingDot s.pos))
  else
    let rest ← slice text s.pos text.utf8ByteSize
    .error (.malformed (.unexpected (rest.toList.headD '?') s.pos))

theorem le_of_identifierEnd {text : String} {pos stop : Nat}
    (h : identifierEnd text pos = .ok stop) : pos ≤ stop := by
  fun_induction identifierEnd text pos with
  | case1 => cases h
  | case2 pos _ _ _ _ ih => exact (Nat.le_succ pos).trans (ih h)
  | case3 => exact (Except.ok.inj h).le
  | case4 => exact (Except.ok.inj h).le

/-- Each round that does not end the scan gets further. -/
theorem pos_lt_of_advance {text : String} {s next : Scanner} (h : s.advance text = .ok next) :
    s.pos < next.pos := by
  obtain ⟨b, _, h⟩ := bind_eq_ok_iff.mp h
  split at h
  · split at h
    · cases h
    · cases h
      exact Nat.lt_succ_self _
  · split at h
    · obtain ⟨rest, _, h⟩ := bind_eq_ok_iff.mp h
      split at h
      · cases h
      · rename_i offset _
        obtain ⟨inner, _, h⟩ := bind_eq_ok_iff.mp h
        obtain ⟨segment, _, h⟩ := bind_eq_ok_iff.mp h
        cases h
        exact Nat.lt_succ_of_le (Nat.le_add_right _ _)
    · split at h
      · split at h
        · obtain ⟨stop, hstop, h⟩ := bind_eq_ok_iff.mp h
          obtain ⟨identifier, _, h⟩ := bind_eq_ok_iff.mp h
          obtain ⟨segment, _, h⟩ := bind_eq_ok_iff.mp h
          cases h
          exact le_of_identifierEnd hstop
        · cases h
      · obtain ⟨rest, _, h⟩ := bind_eq_ok_iff.mp h
        cases h

/-- Rounds up to the end of the text. -/
def run (text : String) (s : Scanner) : Except Halt (List Segment) :=
  if s.pos < text.utf8ByteSize then
    match _h : s.advance text with
    | .error halt => .error halt
    | .ok next => next.run text
  else if s.expecting then .error (.malformed .trailingDot)
  else .ok s.segments
termination_by text.utf8ByteSize - s.pos
decreasing_by
  have hlt := pos_lt_of_advance _h
  omega

/-- What a scan of a text comes to, round by round. -/
inductive Reached (text : String) : Scanner → Prop where
  | start : Reached text start
  | advance {s next : Scanner} :
    Reached text s → s.pos < text.utf8ByteSize → s.advance text = .ok next → Reached text next

end Scanner

/-- Scan a text for the segments of a path. -/
def scan (text : String) : Except Halt (List Segment) :=
  if text.isEmpty then .error (.malformed .empty) else Scanner.start.run text

section Bytes

variable {c d : Char}

def leadByte (c : Char) : UInt8 := (String.utf8EncodeChar c).headD 0

theorem utf8EncodeChar_eq_cons (c : Char) :
    ∃ more, String.utf8EncodeChar c = leadByte c :: more := by
  have hpos : String.utf8EncodeChar c ≠ [] := by
    rw [← List.length_pos_iff, String.length_utf8EncodeChar]
    exact c.utf8Size_pos
  obtain ⟨b, more, h⟩ := List.exists_cons_of_ne_nil hpos
  exact ⟨more, by rw [leadByte, h, List.headD_cons]⟩

theorem toNat_leadByte (c : Char) :
    (leadByte c).toNat = c.toNat ∧ c.toNat < 128 ∨ 128 ≤ (leadByte c).toNat ∧ 128 ≤ c.toNat := by
  have hc := toNat_lt_of_char c
  simp only [leadByte, String.utf8EncodeChar, Char.toNat_val]
  split_ifs <;>
  · simp only [List.headD_cons, UInt8.toNat_ofNat']
    omega

theorem toNat_toUInt8 (hd : d.toNat < 128) : d.toUInt8.toNat = d.toNat := by
  rw [Char.toUInt8, UInt32.toNat_toUInt8, Char.toNat_val]
  omega

theorem leadByte_le_iff (hd : d.toNat < 128) : leadByte c ≤ d.toUInt8 ↔ c ≤ d := by
  have hc := toNat_leadByte c
  rw [UInt8.le_iff_toNat_le, toNat_toUInt8 hd, Char.le_def, UInt32.le_iff_toNat_le,
    Char.toNat_val, Char.toNat_val]
  omega

theorem le_leadByte_iff (hd : d.toNat < 128) : d.toUInt8 ≤ leadByte c ↔ d ≤ c := by
  have hc := toNat_leadByte c
  rw [UInt8.le_iff_toNat_le, toNat_toUInt8 hd, Char.le_def, UInt32.le_iff_toNat_le,
    Char.toNat_val, Char.toNat_val]
  omega

theorem leadByte_eq_iff (hd : d.toNat < 128) : leadByte c = d.toUInt8 ↔ c = d := by
  have hc := toNat_leadByte c
  rw [← UInt8.toNat_inj, toNat_toUInt8 hd, ← Char.toNat_inj]
  omega

theorem leadByte_ne (hd : d.toNat < 128) (h : c ≠ d) : leadByte c ≠ d.toUInt8 :=
  mt (leadByte_eq_iff hd).mp h

theorem isDigitByte_leadByte (c : Char) : isDigitByte (leadByte c) = Numeral.isDigit c := by
  simp [isDigitByte, Numeral.isDigit, leadByte_le_iff, le_leadByte_iff]

theorem isIdentifierStartByte_leadByte (c : Char) :
    isIdentifierStartByte (leadByte c) = isIdentifierStart c := by
  simp [isIdentifierStartByte, isIdentifierStart, isLetterByte, isLetter, leadByte_le_iff,
    le_leadByte_iff, leadByte_eq_iff, Bool.beq_eq_decide_eq]

end Bytes

section Slices

variable {text : String} {pos : Nat} {run rest cs : List Char} {c : Char}

theorem length_octets (s : String) : (octets s).length = s.utf8ByteSize := rfl

/-- The characters of a text from a position on. -/
def LeftAt (text : String) (pos : Nat) (cs : List Char) : Prop :=
  ∃ before, text.toList = before ++ cs ∧ byteLength before = pos

namespace LeftAt

theorem start (text : String) : LeftAt text 0 text.toList := ⟨[], rfl, rfl⟩

theorem skip (run : List Char) (h : LeftAt text pos (run ++ rest)) :
    LeftAt text (pos + byteLength run) rest := by
  obtain ⟨before, htext, rfl⟩ := h
  exact ⟨before ++ run, by rw [htext, List.append_assoc], byteLength_append before run⟩

theorem utf8ByteSize_eq (h : LeftAt text pos cs) : text.utf8ByteSize = pos + byteLength cs := by
  obtain ⟨before, htext, rfl⟩ := h
  rw [← String.ofList_toList (s := text), htext, utf8ByteSize_ofList, byteLength_append]

theorem isValid (h : LeftAt text pos cs) : String.Pos.Raw.IsValid text ⟨pos⟩ := by
  obtain ⟨before, htext, rfl⟩ := h
  refine String.Pos.Raw.isValid_iff_exists_append.mpr ⟨.ofList before, .ofList cs, ?_, ?_⟩
  · rw [← String.ofList_append, ← htext, String.ofList_toList]
  · rw [String.rawEndPos, utf8ByteSize_ofList]

theorem pos_lt (h : LeftAt text pos (c :: cs)) : pos < text.utf8ByteSize := by
  have hc := c.utf8Size_pos
  rw [h.utf8ByteSize_eq, byteLength]
  omega

theorem exists_cons (h : LeftAt text pos cs) (hlt : pos < text.utf8ByteSize) :
    ∃ c rest, cs = c :: rest := by
  refine List.exists_cons_of_ne_nil ?_
  rintro rfl
  exact absurd h.utf8ByteSize_eq hlt.ne'

theorem byteAt_eq (h : LeftAt text pos (c :: cs)) : byteAt text pos = .ok (leadByte c) := by
  obtain ⟨before, htext, rfl⟩ := h
  obtain ⟨more, hc⟩ := utf8EncodeChar_eq_cons c
  have hlength : (before.flatMap String.utf8EncodeChar).length = byteLength before := by
    rw [← octets_ofList, length_octets, utf8ByteSize_ofList]
  rw [byteAt, ← String.ofList_toList (s := text), octets_ofList, htext, List.flatMap_append,
    ← hlength, List.getElem?_append_right le_rfl, Nat.sub_self, List.flatMap_cons, hc]
  rfl

theorem slice_eq (h : LeftAt text pos (run ++ rest)) :
    slice text pos (pos + byteLength run) = .ok (.ofList run) := by
  have hstop := h.skip run
  have hsliceable : Sliceable text pos (pos + byteLength run) :=
    ⟨Nat.le_add_right _ _, hstop.utf8ByteSize_eq ▸ Nat.le_add_right _ _, h.isValid, hstop.isValid⟩
  rw [slice, dif_pos hsliceable]
  refine congrArg Except.ok (String.toByteArray_inj.mp ?_)
  obtain ⟨before, htext, rfl⟩ := h
  have hsize (cs : List Char) : byteLength cs = (String.ofList cs).toByteArray.size :=
    (utf8ByteSize_ofList cs).symm
  have hbytes : text.toByteArray = (String.ofList before).toByteArray ++
      ((String.ofList run).toByteArray ++ (String.ofList rest).toByteArray) := by
    rw [← String.toByteArray_append, ← String.toByteArray_append, ← String.ofList_append,
      ← String.ofList_append, ← htext, String.ofList_toList]
  have hinside := ByteArray.extract_append_size_add' (i := 0) (j := byteLength run)
    (b := (String.ofList run).toByteArray ++ (String.ofList rest).toByteArray) (hsize before)
  rw [Nat.add_zero, ← hbytes, ByteArray.extract_append_eq_left (hsize run)] at hinside
  exact hinside

theorem slice_utf8ByteSize (h : LeftAt text pos cs) :
    slice text pos text.utf8ByteSize = .ok (.ofList cs) := by
  have hall : LeftAt text pos (cs ++ []) := by rwa [List.append_nil]
  rw [h.utf8ByteSize_eq]
  exact hall.slice_eq

end LeftAt

end Slices

section Readings

variable {text : String} {pos : Nat} {cs : List Char}

theorem isIdentifierRestByte_leadByte (c : Char) :
    isIdentifierRestByte (leadByte c) = isIdentifierRest c := by
  rw [isIdentifierRestByte, isIdentifierRest, isIdentifierStartByte_leadByte, isDigitByte_leadByte]

theorem utf8Size_of_isDigit {c : Char} (h : Numeral.isDigit c = true) : c.utf8Size = 1 :=
  utf8Size_of_isIdentifierRest (isIdentifierRest_iff.mp (by rw [isIdentifierRest, h, Bool.or_true]))

theorem hasDigitsOnly_ofList (cs : List Char) :
    hasDigitsOnly (.ofList cs) = cs.all Numeral.isDigit := by
  rw [hasDigitsOnly, octets_ofList]
  induction cs with
  | nil => rfl
  | cons c cs ih =>
    obtain ⟨more, hc⟩ := utf8EncodeChar_eq_cons c
    rw [List.flatMap_cons, List.all_append, ih, hc, List.all_cons, List.all_cons,
      isDigitByte_leadByte]
    cases hdigit : Numeral.isDigit c with
    | false => rfl
    | true =>
      have hlength := String.length_utf8EncodeChar c
      rw [hc, utf8Size_of_isDigit hdigit, List.length_cons, Nat.add_eq_right] at hlength
      rw [List.eq_nil_of_length_eq_zero hlength]
      rfl

theorem isEmpty_ofList (cs : List Char) : (String.ofList cs).isEmpty = cs.isEmpty := by
  rw [Bool.eq_iff_iff, String.isEmpty_iff, List.isEmpty_iff, String.ofList_eq_empty_iff]

theorem sliceBracket_ofList (inner : List Char) :
    sliceBracket (.ofList inner) = readBracket inner := by
  rw [sliceBracket, readBracket, isEmpty_ofList, hasDigitsOnly_ofList, String.toList_ofList]

theorem sliceDigits?_ofList (identifier : List Char) :
    sliceDigits? (.ofList identifier) = (argumentDigits? identifier).map .ofList := by
  rw [sliceDigits?, String.toList_ofList]
  cases identifier with
  | nil => rfl
  | cons c digits =>
    by_cases hc : c = '$'
    · subst hc
      simp only [argumentDigits?, isEmpty_ofList, hasDigitsOnly_ofList]
      split <;> rfl
    · simp [argumentDigits?, hc]

theorem sliceIdentifier_ofList (atStart : Bool) (identifier : List Char) :
    sliceIdentifier atStart (.ofList identifier) = readIdentifier atStart identifier := by
  rw [sliceIdentifier, readIdentifier, sliceDigits?_ofList]
  cases argumentDigits? identifier with
  | none => rfl
  | some digits =>
    simp only [Option.map_some, String.toList_ofList]

theorem closing?_of_dropWhile_eq_cons {close : Char} {rest : List Char}
    (h : cs.dropWhile (· ≠ ']') = close :: rest) :
    closing? cs = some (byteLength (cs.takeWhile (· ≠ ']'))) := by
  induction cs with
  | nil => cases h
  | cons c cs ih =>
    rw [closing?]
    by_cases hc : c = ']'
    · rw [if_pos hc, List.takeWhile_cons_of_neg (by simpa using hc), byteLength]
    · rw [List.dropWhile_cons_of_pos (by simpa using hc)] at h
      rw [if_neg hc, ih h, List.takeWhile_cons_of_pos (by simpa using hc), byteLength]
      rfl

theorem closing?_of_dropWhile_eq_nil (h : cs.dropWhile (· ≠ ']') = []) : closing? cs = none := by
  induction cs with
  | nil => rfl
  | cons c cs ih =>
    rw [closing?]
    by_cases hc : c = ']'
    · rw [List.dropWhile_cons_of_neg (by simpa using hc)] at h
      cases h
    · rw [List.dropWhile_cons_of_pos (by simpa using hc)] at h
      rw [if_neg hc, ih h]
      rfl

theorem LeftAt.next {c : Char} (h : LeftAt text pos (c :: cs)) (hc : IsIdentifierRest c) :
    LeftAt text (pos + 1) cs := by
  have hskip := h.skip [c]
  rwa [byteLength, utf8Size_of_isIdentifierRest hc] at hskip

theorem LeftAt.identifierEnd_eq (h : LeftAt text pos cs) :
    identifierEnd text pos = .ok (pos + byteLength (cs.takeWhile isIdentifierRest)) := by
  induction cs generalizing pos with
  | nil =>
    have hsize : text.utf8ByteSize = pos := h.utf8ByteSize_eq
    rw [identifierEnd, if_neg hsize.not_gt]
    rfl
  | cons c cs ih =>
    rw [identifierEnd, if_pos h.pos_lt, h.byteAt_eq]
    dsimp only
    rw [isIdentifierRestByte_leadByte]
    split
    · rename_i hc
      have hrest := isIdentifierRest_iff.mp hc
      rw [ih (h.next hrest), List.takeWhile_cons_of_pos hc, byteLength,
        utf8Size_of_isIdentifierRest hrest, Nat.add_assoc]
    · rename_i hc
      rw [List.takeWhile_cons_of_neg hc]
      rfl

end Readings

namespace Scanner

section Rounds

variable {text : String} {s next : Scanner} {c : Char} {cs : List Char}

/-- Where the reader is that has read what is scanned. -/
def cursor (s : Scanner) : Cursor := ⟨s.pos, s.expecting, s.segments.isEmpty⟩

def past (s : Scanner) (st : Step) : Scanner :=
  ⟨st.cursor.offset, st.cursor.expecting, s.segments ++ st.segment?.toList⟩

theorem advance_dot (h : LeftAt text s.pos ('.' :: cs)) :
    s.advance text = ((step s.cursor '.' cs).mapError .malformed).map s.past := by
  rw [advance, h.byteAt_eq, ok_bind, if_pos ((leadByte_eq_iff (by decide)).mpr rfl), step,
    if_pos rfl]
  cases hexpecting : s.expecting with
  | true => simp [cursor, hexpecting, Except.mapError, Except.map]
  | false => simp [cursor, hexpecting, Except.mapError, Except.map, past]

theorem advance_bracket (h : LeftAt text s.pos ('[' :: cs)) :
    s.advance text = ((step s.cursor '[' cs).mapError .malformed).map s.past := by
  have hinside : LeftAt text (s.pos + 1) cs := h.skip ['[']
  rw [advance, h.byteAt_eq, ok_bind, if_neg (leadByte_ne (by decide) (by decide)),
    if_pos ((leadByte_eq_iff (by decide)).mpr rfl), h.slice_utf8ByteSize, ok_bind,
    String.toList_ofList, closing?, if_neg (by decide), step, if_neg (by decide), if_pos rfl]
  dsimp only
  cases hrest : cs.dropWhile (· ≠ ']') with
  | nil =>
    rw [closing?_of_dropWhile_eq_nil hrest]
    rfl
  | cons close rest =>
    obtain ⟨htext, -⟩ := takeWhile_dropWhile_iff.mp ⟨rfl, hrest⟩
    rw [htext] at hinside
    have hinner := hinside.slice_eq
    have hstop (n : Nat) : s.pos + ('['.utf8Size + n) = s.pos + 1 + n := (Nat.add_assoc _ 1 n).symm
    rw [closing?_of_dropWhile_eq_cons hrest, Option.map_some]
    dsimp only
    rw [hstop, hinner, ok_bind, sliceBracket_ofList]
    cases readBracket (cs.takeWhile (· ≠ ']')) with
    | error reason => rfl
    | ok segment =>
      refine congrArg (fun pos => Except.ok (mk pos false (s.segments ++ [segment]))) ?_
      dsimp only [cursor]
      omega

theorem advance_identifier (hc : isIdentifierStart c = true) (h : LeftAt text s.pos (c :: cs)) :
    s.advance text = ((step s.cursor c cs).mapError .malformed).map s.past := by
  have hrest : isIdentifierRest c = true := by rw [isIdentifierRest, hc, Bool.true_or]
  have hdot : c ≠ '.' := by
    rintro rfl
    exact absurd hc (by decide)
  have hopen : c ≠ '[' := by
    rintro rfl
    exact absurd hc (by decide)
  rw [advance, h.byteAt_eq, ok_bind, if_neg (leadByte_ne (by decide) hdot),
    if_neg (leadByte_ne (by decide) hopen), isIdentifierStartByte_leadByte, if_pos hc,
    step, if_neg hdot, if_neg hopen, if_pos hc]
  cases hexpecting : s.expecting with
  | false => simp [cursor, hexpecting, Except.mapError, Except.map]
  | true =>
    have hcursor : s.cursor.expecting = true := hexpecting
    have hsplit : c :: cs = (c :: cs.takeWhile isIdentifierRest) ++ cs.dropWhile isIdentifierRest :=
      congrArg (c :: ·) List.takeWhile_append_dropWhile.symm
    have hrun (d : Char) (hd : d ∈ cs.takeWhile isIdentifierRest) : IsIdentifierRest d :=
      isIdentifierRest_iff.mp (List.all_eq_true.mp List.all_takeWhile d hd)
    have hend := (h.next (isIdentifierRest_iff.mp hrest)).identifierEnd_eq
    rw [hsplit] at h
    have hslice := h.slice_eq
    rw [byteLength, utf8Size_of_isIdentifierRest (isIdentifierRest_iff.mp hrest), ← Nat.add_assoc]
      at hslice
    rw [if_pos rfl, hend, ok_bind, hslice, ok_bind, sliceIdentifier_ofList, if_pos hcursor]
    dsimp only [cursor]
    cases readIdentifier s.segments.isEmpty (c :: cs.takeWhile isIdentifierRest) with
    | error reason => rfl
    | ok segment =>
      refine congrArg (fun pos => Except.ok (mk pos false (s.segments ++ [segment]))) ?_
      dsimp only
      rw [byteLength_identifier hrun, List.length_cons, Nat.add_assoc, Nat.add_comm 1]

/-- A round scans what a step of the reader takes. -/
theorem advance_eq_step (h : LeftAt text s.pos (c :: cs)) :
    s.advance text = ((step s.cursor c cs).mapError .malformed).map s.past := by
  by_cases hdot : c = '.'
  · subst hdot
    exact advance_dot h
  by_cases hopen : c = '['
  · subst hopen
    exact advance_bracket h
  by_cases hc : isIdentifierStart c = true
  · exact advance_identifier hc h
  · rw [advance, h.byteAt_eq, ok_bind, if_neg (leadByte_ne (by decide) hdot),
      if_neg (leadByte_ne (by decide) hopen), isIdentifierStartByte_leadByte, if_neg hc,
      h.slice_utf8ByteSize, ok_bind, String.toList_ofList, step, if_neg hdot, if_neg hopen,
      if_neg hc]
    rfl

theorem advance_eq_ok_iff (h : LeftAt text s.pos (c :: cs)) :
    s.advance text = .ok next ↔ ∃ st, step s.cursor c cs = .ok st ∧ s.past st = next := by
  rw [advance_eq_step h]
  exact map_eq_ok_iff.trans (exists_congr fun _ => and_congr_left fun _ => mapError_eq_ok_iff)

theorem advance_eq_error_iff {halt : Halt} (h : LeftAt text s.pos (c :: cs)) :
    s.advance text = .error halt ↔
      ∃ reason, step s.cursor c cs = .error reason ∧ .malformed reason = halt := by
  rw [advance_eq_step h]
  cases step s.cursor c cs <;> simp [Except.mapError, Except.map]

theorem leftAt_of_step {cur : Cursor} {st : Step} (h : LeftAt text cur.offset (c :: cs))
    (hst : step cur c cs = .ok st) : LeftAt text st.cursor.offset st.rest := by
  rcases step_eq_ok_iff.mp hst with ⟨rfl, -, rfl⟩ | ⟨item, rest, htakes, rfl⟩
  · exact h.skip ['.']
  · rw [htakes.text] at h
    exact h.skip item.chars

theorem cursor_past {st : Step} (hst : step s.cursor c cs = .ok st) :
    (s.past st).cursor = st.cursor := by
  rcases step_eq_ok_iff.mp hst with ⟨-, -, rfl⟩ | ⟨item, rest, -, rfl⟩
  · simp [cursor, past]
  · simp [cursor, past, Cursor.past]

theorem leftAt_of_advance (h : LeftAt text s.pos (c :: cs)) (hnext : s.advance text = .ok next) :
    ∃ rest, LeftAt text next.pos rest := by
  obtain ⟨st, hst, rfl⟩ := (advance_eq_ok_iff h).mp hnext
  exact ⟨st.rest, leftAt_of_step h hst⟩

/-- A scan only comes to positions in front of a character, and to the end. -/
theorem Reached.leftAt (h : Reached text s) : ∃ cs, LeftAt text s.pos cs := by
  induction h with
  | start => exact ⟨_, .start text⟩
  | advance _ hlt hnext ih =>
    obtain ⟨cs, hleft⟩ := ih
    obtain ⟨c, rest, rfl⟩ := hleft.exists_cons hlt
    exact leftAt_of_advance hleft hnext

theorem readSegments_cons_of_step {cur : Cursor} {st : Step} (hst : step cur c cs = .ok st) :
    readSegments cur (c :: cs) =
      (readSegments st.cursor st.rest).map fun segments => st.segment?.toList ++ segments := by
  rw [readSegments]
  split
  · rename_i hfault
    rw [hst] at hfault
    cases hfault
  · rename_i hst'
    rw [hst] at hst'
    cases hst'
    rfl

/-- From wherever it has come, the scan reads what the reader does. -/
theorem run_eq_readSegments (h : LeftAt text s.pos cs) :
    s.run text = ((readSegments s.cursor cs).mapError .malformed).map (s.segments ++ ·) := by
  induction hn : cs.length using Nat.strong_induction_on generalizing s cs with
  | _ n ih =>
    cases cs with
    | nil =>
      have hsize : text.utf8ByteSize = s.pos := h.utf8ByteSize_eq
      rw [run, if_neg hsize.not_gt, readSegments]
      cases hexpecting : s.expecting <;>
        simp [cursor, hexpecting, Except.mapError, Except.map]
    | cons c cs =>
      rw [run, if_pos h.pos_lt]
      split
      · rename_i halt hround
        obtain ⟨reason, hst, rfl⟩ := (advance_eq_error_iff h).mp hround
        rw [readSegments_cons_eq_error_iff.mpr (.inl hst)]
        rfl
      · rename_i next hround
        obtain ⟨st, hst, rfl⟩ := (advance_eq_ok_iff h).mp hround
        have hlt : st.rest.length < n := hn ▸ Nat.lt_succ_of_le (step_rest_length hst)
        rw [ih _ hlt (leftAt_of_step h hst) rfl, cursor_past hst, readSegments_cons_of_step hst]
        cases readSegments st.cursor st.rest with
        | error reason => rfl
        | ok segments => exact congrArg Except.ok (List.append_assoc _ _ _)

end Rounds

end Scanner

theorem scan_eq_parseSegments (text : String) :
    scan text = (parseSegments text).mapError .malformed := by
  have hcursor : Scanner.start.cursor = ⟨0, true, true⟩ := rfl
  rw [scan, parseSegments]
  split
  · rfl
  · rw [Scanner.run_eq_readSegments (.start text), hcursor]
    cases readSegments ⟨0, true, true⟩ text.toList <;> rfl

/--
The scanner ends for every text, with the segments of its path or with what is
wrong with it, as the reader does. Wherever it comes on the way, it is between two
characters; from there it goes on, but not past the end, unless something is wrong
with the text. It never looks at a byte behind the end, and never cuts a character
in two.
-/
theorem scan_stays_inside (text : String) :
    ((∃ p, Path.read text = .ok p ∧ scan text = .ok p.segments) ∨
      ∃ reason, Path.read text = .error (.invalidPath text reason) ∧
        scan text = .error (.malformed reason)) ∧
      ∀ s, Scanner.Reached text s → String.Pos.Raw.IsValid text ⟨s.pos⟩ ∧
        (s.pos < text.utf8ByteSize →
          (∃ next, s.advance text = .ok next ∧ s.pos < next.pos ∧ next.pos ≤ text.utf8ByteSize) ∨
            ∃ reason, s.advance text = .error (.malformed reason)) := by
  constructor
  · rw [scan_eq_parseSegments]
    cases hparse : parseSegments text with
    | ok segments =>
      obtain ⟨p, hp, rfl⟩ := exists_read_of_parseSegments hparse
      exact .inl ⟨p, hp, rfl⟩
    | error reason =>
      exact .inr ⟨reason, read_eq_error_iff.mpr ⟨reason, hparse, rfl⟩, rfl⟩
  · intro s hs
    obtain ⟨cs, hleft⟩ := hs.leftAt
    refine ⟨hleft.isValid, fun hlt => ?_⟩
    obtain ⟨c, rest, rfl⟩ := hleft.exists_cons hlt
    cases hround : s.advance text with
    | ok next =>
      obtain ⟨left, hnext⟩ := Scanner.leftAt_of_advance hleft hround
      refine .inl ⟨next, rfl, Scanner.pos_lt_of_advance hround, ?_⟩
      exact hnext.utf8ByteSize_eq ▸ Nat.le_add_right _ _
    | error halt =>
      obtain ⟨reason, _, rfl⟩ := (Scanner.advance_eq_error_iff hleft).mp hround
      exact .inr ⟨reason, rfl⟩

theorem scan_stays_inside_accent :
    (∃ next, Scanner.start.advance "a[é]" = .ok next ∧ 0 < next.pos ∧ next.pos ≤ 5) ∧
      Scanner.Reached "a[é]" ⟨1, false, [.access (.key "a")]⟩ ∧
      String.Pos.Raw.IsValid "a[é]" ⟨1⟩ ∧ ¬ String.Pos.Raw.IsValid "a[é]" ⟨3⟩ ∧
      scan "a[é]" = .error (.malformed (.invalidIndex "é")) := by
  have hfirst : Scanner.start.advance "a[é]" = .ok ⟨1, false, [.access (.key "a")]⟩ :=
    (Scanner.advance_eq_ok_iff (.start _)).mpr ⟨_, rfl, rfl⟩
  have hreached : Scanner.Reached "a[é]" ⟨1, false, [.access (.key "a")]⟩ :=
    .advance .start (by decide) hfirst
  have hread : Path.read "a[é]" = .error (.invalidPath "a[é]" (.invalidIndex "é")) := by
    decide +kernel
  obtain ⟨hscan, hinside⟩ := scan_stays_inside "a[é]"
  refine ⟨?_, hreached, (hinside _ hreached).1, by decide, ?_⟩
  · rcases (hinside _ .start).2 (by decide) with hnext | ⟨reason, hreason⟩
    · exact hnext
    · rw [hfirst] at hreason
      cases hreason
  · rcases hscan with ⟨p, hp, -⟩ | ⟨reason, hreason, hhalt⟩
    · rw [hread] at hp
      cases hp
    · rw [hread] at hreason
      cases hreason
      exact hhalt

end Path

end Reshape
