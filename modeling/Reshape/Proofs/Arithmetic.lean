import Mathlib.Algebra.BigOperators.Group.List.Basic
import Mathlib.Algebra.Order.BigOperators.Group.List
import Mathlib.Algebra.Order.Ring.Int
import Mathlib.Data.List.Infix
import Reshape.Extension.Builtin
import Reshape.Proofs.Results

/-! # Exact arithmetic

An integer that a function on numbers answers with is the exact result for integers
of 64 bits. A sum is exact as long as its running totals fit, which depends on the
order of the values; one order that fits exists wherever the sum itself does.
-/

namespace Reshape

open Number (FitsInt64)

/-- A floating-point number or an error. -/
def IsRounded {ε : Type} (r : Except ε Value) : Prop :=
  (∃ x, r = .ok (.number (.float x))) ∨ ∃ e, r = .error e

def Value.IsInt64 (v : Value) : Prop := ∃ n, v = .int n ∧ FitsInt64 n

/-- Apart from nulls, the values are these integers. -/
def AreIntegers (values : List Value) (ns : List Int) : Prop :=
  (values.filter fun v => !v.isNull) = ns.map .int

/-- The running totals of numbers, from a first one on, fit. -/
def TotalsFit (total : Int) (ns : List Int) : Prop := ∀ p, p <+: ns → FitsInt64 (total + p.sum)

instance (total : Int) (ns : List Int) : Decidable (TotalsFit total ns) :=
  decidable_of_iff (∀ p ∈ ns.inits, FitsInt64 (total + p.sum))
    (forall_congr' fun p => by rw [List.mem_inits])

inductive Arithmetic where
  | add
  | multiply
  | sum
deriving DecidableEq

namespace Arithmetic

def name : Arithmetic → String
  | add => "add"
  | multiply => "multiply"
  | sum => "sum"

def answer (f : Arithmetic) (args : List Value) : Except LoadError Value :=
  Registry.builtins.call "math" f.name args

/-- The values that a function uses, unless there are too few. -/
def used? : Arithmetic → List Value → Option (List Value)
  | sum, [.array items] => some (items.filter fun v => !v.isNull)
  | sum, args => some (args.filter fun v => !v.isNull)
  | _, v :: w :: _ => some [v, w]
  | _, _ => none

def exact : Arithmetic → List Int → Int
  | multiply, ns => ns.prod
  | _, ns => ns.sum

def Uses (f : Arithmetic) (args : List Value) (ns : List Int) : Prop :=
  f.used? args = some (ns.map .int) ∧ ∀ n ∈ ns, FitsInt64 n

end Arithmetic

section Rounding

variable {ε δ : Type}

theorem isRounded_ofResult (x : Binary64) : IsRounded (Value.ofResult x) := by
  rw [Value.ofResult, Value.ofBinary64?]
  split
  · rename_i v hv
    split at hv
    · exact .inl ⟨x, congrArg Except.ok (Option.some.inj hv).symm⟩
    · cases hv
  · exact .inr ⟨_, rfl⟩

theorem IsRounded.bind {α : Type} {r : Except ε α} {f : α → Except ε Value}
    (hf : ∀ a, IsRounded (f a)) : IsRounded (r >>= f) := by
  cases r with
  | error e => exact .inr ⟨e, rfl⟩
  | ok a => exact hf a

theorem IsRounded.mapError {r : Except ε Value} (h : IsRounded r) (g : ε → δ) :
    IsRounded (r.mapError g) := by
  rcases h with ⟨x, rfl⟩ | ⟨e, rfl⟩
  · exact .inl ⟨x, rfl⟩
  · exact .inr ⟨g e, rfl⟩

theorem IsRounded.ne_int {r : Except ε Value} (h : IsRounded r) (n : Int) : r ≠ .ok (.int n) := by
  rcases h with ⟨x, rfl⟩ | ⟨e, rfl⟩ <;> simp [Value.int]

end Rounding

section Operations

variable {v w : Value} {values : List Value} {n m total : Int} {ns : List Int}

theorem int_injective : Function.Injective Value.int := fun _ _ h => by simpa [Value.int] using h

theorem AreIntegers.eq {ms : List Int} (h : AreIntegers values ns) (h' : AreIntegers values ms) :
    ns = ms :=
  List.map_injective_iff.mpr int_injective (h.symm.trans h')

theorem checkedInt64_eq_some_iff : checkedInt64 n = some m ↔ n = m ∧ FitsInt64 m := by
  rw [checkedInt64, Option.ite_none_right_eq_some, Option.some.injEq, and_comm]
  exact and_congr_right fun h => by rw [h]

theorem int64?_eq_some_iff : v.int64? = some n ↔ v = .int n ∧ FitsInt64 n := by
  unfold Value.int64?
  split
  · rename_i m
    rw [checkedInt64_eq_some_iff, Value.int, Value.number.injEq, Number.int.injEq]
  · rename_i hne
    exact ⟨nofun, fun h => absurd h.1 (hne n)⟩

theorem combine_eq_int {op : Int → Int → Int} {rounded : Binary64 → Binary64 → Binary64}
    (hn : FitsInt64 n) (hm : FitsInt64 m) (h : FitsInt64 (op n m)) :
    (Value.int n).combine op rounded (.int m) = .ok (.int (op n m)) := by
  simp [Value.combine, int64?_eq_some_iff.mpr ⟨rfl, hn⟩, int64?_eq_some_iff.mpr ⟨rfl, hm⟩,
    checkedInt64_eq_some_iff.mpr ⟨rfl, h⟩]

theorem isRounded_combine {op : Int → Int → Int} {rounded : Binary64 → Binary64 → Binary64}
    (h : ∀ n m, v = .int n → w = .int m → FitsInt64 n → FitsInt64 m → ¬ FitsInt64 (op n m)) :
    IsRounded (v.combine op rounded w) := by
  rw [Value.combine]
  split
  · rename_i k hk
    simp only [Option.bind_eq_bind, Option.bind_eq_some_iff, int64?_eq_some_iff,
      checkedInt64_eq_some_iff] at hk
    obtain ⟨n, ⟨hv, hn⟩, m, ⟨hw, hm⟩, rfl, hfits⟩ := hk
    exact absurd hfits (h n m hv hw hn hm)
  · exact .bind fun _ => .bind fun _ => isRounded_ofResult _

theorem totalsFit_cons :
    TotalsFit total (n :: ns) ↔ FitsInt64 total ∧ TotalsFit (total + n) ns := by
  simp only [TotalsFit, List.prefix_cons_iff]
  constructor
  · intro h
    refine ⟨by simpa using h [] (.inl rfl), fun p hp => ?_⟩
    simpa [add_assoc] using h (n :: p) (.inr ⟨p, rfl, hp⟩)
  · rintro ⟨htotal, h⟩ p (rfl | ⟨p, rfl, hp⟩)
    · simpa using htotal
    · simpa [add_assoc] using h p hp

/-- An exact sum is that of integers whose running totals fit. -/
theorem foldlM_eq_some_iff (htotal : FitsInt64 total) :
    values.foldlM (fun total v => do checkedInt64 (total + (← v.int64?))) total = some n ↔
      ∃ ns : List Int, values = ns.map .int ∧ (∀ m ∈ ns, FitsInt64 m) ∧ TotalsFit total ns ∧
        n = total + ns.sum := by
  induction values generalizing total with
  | nil =>
    have hnil : TotalsFit total [] := fun p hp => by simpa [List.prefix_nil.mp hp] using htotal
    simp [eq_comm, hnil]
  | cons v values ih =>
    simp only [List.foldlM_cons, Option.bind_eq_bind, Option.bind_eq_some_iff, int64?_eq_some_iff,
      checkedInt64_eq_some_iff]
    constructor
    · rintro ⟨_, ⟨m, ⟨rfl, hm⟩, rfl, hfits⟩, h⟩
      obtain ⟨ns, rfl, hns, htotals, rfl⟩ := (ih hfits).mp h
      exact ⟨m :: ns, rfl, List.forall_mem_cons.mpr ⟨hm, hns⟩,
        totalsFit_cons.mpr ⟨htotal, htotals⟩, by rw [List.sum_cons, add_assoc]⟩
    · rintro ⟨ns, hvalues, hns, htotals, rfl⟩
      cases ns with
      | nil => cases hvalues
      | cons m ns =>
        obtain ⟨rfl, rfl⟩ := List.cons.inj hvalues
        obtain ⟨hm, hns⟩ := List.forall_mem_cons.mp hns
        obtain ⟨_, htotals⟩ := totalsFit_cons.mp htotals
        have hfits : FitsInt64 (total + m) := by simpa using htotals [] List.nil_prefix
        exact ⟨total + m, ⟨m, ⟨rfl, hm⟩, rfl, hfits⟩,
          (ih hfits).mpr ⟨ns, rfl, hns, htotals, by rw [List.sum_cons, add_assoc]⟩⟩

theorem sum_eq_int (hvalues : AreIntegers values ns) (hns : ∀ n ∈ ns, FitsInt64 n)
    (htotals : TotalsFit 0 ns) :
    Value.sum values = .ok (.int ns.sum) := by
  have hsum : Value.exactSum? (ns.map .int) = some ns.sum :=
    (foldlM_eq_some_iff (by decide)).mpr ⟨ns, rfl, hns, htotals, (zero_add _).symm⟩
  rw [AreIntegers] at hvalues
  rw [Value.sum, hvalues, hsum]

theorem isRounded_sum
    (h : ∀ ns, AreIntegers values ns → (∀ n ∈ ns, FitsInt64 n) → ¬ TotalsFit 0 ns) :
    IsRounded (Value.sum values) := by
  rw [Value.sum]
  split
  · rename_i n hn
    obtain ⟨ns, hvalues, hns, htotals, _⟩ := (foldlM_eq_some_iff (by decide)).mp hn
    exact absurd htotals (h ns hvalues hns)
  · exact .bind fun x => isRounded_ofResult x

theorem sum_nonpos (h : ∀ n ∈ ns, n ≤ 0) : ns.sum ≤ 0 := by
  simpa using List.sum_le_card_nsmul ns 0 h

theorem totalsFit_of_signs (hsigns : (∀ n ∈ ns, 0 ≤ n) ∨ ∀ n ∈ ns, n ≤ 0)
    (htotal : FitsInt64 total) (hsum : FitsInt64 (total + ns.sum)) : TotalsFit total ns := by
  rintro p ⟨q, rfl⟩
  rw [List.sum_append] at hsum
  simp only [List.forall_mem_append] at hsigns
  unfold FitsInt64 at *
  rcases hsigns with ⟨hp, hq⟩ | ⟨hp, hq⟩
  · have := List.sum_nonneg hp
    have := List.sum_nonneg hq
    omega
  · have := sum_nonpos hp
    have := sum_nonpos hq
    omega

theorem exists_fits_add (hns : ns ≠ []) (hfit : ∀ n ∈ ns, FitsInt64 n) (htotal : FitsInt64 total)
    (hsum : FitsInt64 (total + ns.sum)) : ∃ n ∈ ns, FitsInt64 (total + n) := by
  by_cases hsigns : (∀ n ∈ ns, 0 ≤ n) ∨ ∀ n ∈ ns, n ≤ 0
  · obtain ⟨n, rest, rfl⟩ := List.exists_cons_of_ne_nil hns
    have htotals := (totalsFit_cons.mp (totalsFit_of_signs hsigns htotal hsum)).2
    exact ⟨n, List.mem_cons_self, by simpa using htotals [] List.nil_prefix⟩
  -- There are numbers of both signs, so one of them leads back towards zero.
  · obtain ⟨⟨n, hn, hneg⟩, m, hm, hpos⟩ := by simpa using hsigns
    have hfitn := hfit n hn
    have hfitm := hfit m hm
    unfold FitsInt64 at *
    by_cases hnonneg : 0 ≤ total
    · exact ⟨n, hn, by omega⟩
    · exact ⟨m, hm, by omega⟩

/-- Numbers whose sum fits can be ordered so that all running totals do. -/
theorem exists_perm_totalsFit (hfit : ∀ n ∈ ns, FitsInt64 n) (htotal : FitsInt64 total)
    (hsum : FitsInt64 (total + ns.sum)) : ∃ ms : List Int, ms.Perm ns ∧ TotalsFit total ms := by
  induction hlength : ns.length generalizing ns total with
  | zero =>
    obtain rfl := List.length_eq_zero_iff.mp hlength
    exact ⟨[], .refl _, totalsFit_of_signs (.inl (by simp)) htotal hsum⟩
  | succ k ih =>
    have hns : ns ≠ [] := List.ne_nil_of_length_eq_add_one hlength
    obtain ⟨n, hn, hadd⟩ := exists_fits_add hns hfit htotal hsum
    have hperm := List.perm_cons_erase hn
    rw [hperm.sum_eq, List.sum_cons, ← add_assoc] at hsum
    obtain ⟨ms, hms, htotals⟩ := ih (fun m hm => hfit m (List.mem_of_mem_erase hm)) hadd hsum
      (by rw [List.length_erase_of_mem hn, hlength, Nat.add_sub_cancel])
    exact ⟨n :: ms, (hms.cons n).trans hperm.symm, totalsFit_cons.mpr ⟨htotal, htotals⟩⟩

end Operations

namespace Arithmetic

variable {f : Arithmetic} {args values others : List Value} {ns ms : List Int} {n : Int}

theorem answer_add (v w : Value) (rest : List Value) :
    add.answer (v :: w :: rest) = (v.combine (· + ·) Binary64.add w).mapError .transform := rfl

theorem answer_multiply (v w : Value) (rest : List Value) :
    multiply.answer (v :: w :: rest) = (v.combine (· * ·) Binary64.mul w).mapError .transform := rfl

theorem answer_sum (args : List Value) :
    sum.answer args = (Value.sum (summands args)).mapError .transform := rfl

theorem used?_sum (args : List Value) :
    sum.used? args = some ((summands args).filter fun v => !v.isNull) := by
  unfold summands
  split
  · rfl
  · rename_i hne
    rw [used?]
    exact hne

theorem summands_eq (hvalues : AreIntegers values ns)
    (hargs : args = values ∨ args = [.array values]) : summands args = values := by
  rcases hargs with rfl | rfl
  · unfold summands
    split
    · rename_i items
      obtain ⟨n, _, hn⟩ := List.map_eq_singleton_iff.mp hvalues.symm
      cases hn
    · rfl
  · rfl

theorem Uses.eq (h : f.Uses args ns) (h' : f.Uses args ms) : ns = ms :=
  List.map_injective_iff.mpr int_injective (Option.some.inj (h.1.symm.trans h'.1))

theorem uses_pair_iff {v w : Value} (hused : f.used? args = some [v, w]) :
    f.Uses args ns ↔ ∃ n m, ns = [n, m] ∧ v = .int n ∧ w = .int m ∧ FitsInt64 n ∧ FitsInt64 m := by
  rw [Uses, hused, Option.some.injEq]
  constructor
  · rintro ⟨hvalues, hns⟩
    match ns with
    | [n, m] =>
      simp only [List.map_cons, List.map_nil, List.cons.injEq, and_true] at hvalues
      exact ⟨n, m, rfl, hvalues.1, hvalues.2, hns n (by simp), hns m (by simp)⟩
  · rintro ⟨n, m, rfl, rfl, rfl, hn, hm⟩
    exact ⟨rfl, by simp [hn, hm]⟩

theorem answer_pair {v w : Value} {op : Int → Int → Int}
    {rounded : Binary64 → Binary64 → Binary64} (hused : f.used? args = some [v, w])
    (hexact : ∀ n m, f.exact [n, m] = op n m)
    (hanswer : f.answer args = (v.combine op rounded w).mapError .transform) :
    (∃ ns, f.Uses args ns ∧ FitsInt64 (f.exact ns) ∧ f.answer args = .ok (.int (f.exact ns))) ∨
      (∀ ns, f.Uses args ns → ¬ FitsInt64 (f.exact ns)) ∧ IsRounded (f.answer args) := by
  simp only [uses_pair_iff hused, hanswer]
  by_cases h : ∃ n m, v = .int n ∧ w = .int m ∧ FitsInt64 n ∧ FitsInt64 m ∧ FitsInt64 (op n m)
  · obtain ⟨n, m, rfl, rfl, hn, hm, hfits⟩ := h
    rw [combine_eq_int hn hm hfits, ← hexact]
    exact .inl ⟨[n, m], ⟨n, m, rfl, rfl, rfl, hn, hm⟩, hexact n m ▸ hfits, rfl⟩
  · refine .inr ⟨?_, (isRounded_combine fun n m hv hw hn hm hfits => ?_).mapError _⟩
    · rintro _ ⟨n, m, rfl, hv, hw, hn, hm⟩ hfits
      exact h ⟨n, m, hv, hw, hn, hm, hexact n m ▸ hfits⟩
    · exact h ⟨n, m, hv, hw, hn, hm, hfits⟩

theorem answer_of_ne_sum (hf : f ≠ sum) (args : List Value) :
    (∃ ns, f.Uses args ns ∧ FitsInt64 (f.exact ns) ∧ f.answer args = .ok (.int (f.exact ns))) ∨
      (∀ ns, f.Uses args ns → ¬ FitsInt64 (f.exact ns)) ∧ IsRounded (f.answer args) := by
  match f, args with
  | add, [] => exact .inr ⟨fun _ h => (nomatch h.1), .inr ⟨_, rfl⟩⟩
  | add, [_] => exact .inr ⟨fun _ h => (nomatch h.1), .inr ⟨_, rfl⟩⟩
  | add, v :: w :: rest => exact answer_pair rfl (by simp [exact]) (answer_add v w rest)
  | multiply, [] => exact .inr ⟨fun _ h => (nomatch h.1), .inr ⟨_, rfl⟩⟩
  | multiply, [_] => exact .inr ⟨fun _ h => (nomatch h.1), .inr ⟨_, rfl⟩⟩
  | multiply, v :: w :: rest => exact answer_pair rfl (by simp [exact]) (answer_multiply v w rest)

theorem answer_sum_cases (args : List Value) :
    (∃ ns, sum.Uses args ns ∧ TotalsFit 0 ns ∧ sum.answer args = .ok (.int ns.sum)) ∨
      (∀ ns, sum.Uses args ns → ¬ TotalsFit 0 ns) ∧ IsRounded (sum.answer args) := by
  simp only [Uses, used?_sum, Option.some.injEq, answer_sum]
  by_cases h : ∃ ns, AreIntegers (summands args) ns ∧ (∀ n ∈ ns, FitsInt64 n) ∧ TotalsFit 0 ns
  · obtain ⟨ns, hused, hns, htotals⟩ := h
    rw [sum_eq_int hused hns htotals]
    exact .inl ⟨ns, ⟨hused, hns⟩, htotals, rfl⟩
  · refine .inr ⟨?_, (isRounded_sum fun ns hused hns htotals => ?_).mapError _⟩
    · exact fun ns ⟨hused, hns⟩ htotals => h ⟨ns, hused, hns, htotals⟩
    · exact h ⟨ns, hused, hns, htotals⟩

theorem answer_cases (f : Arithmetic) (args : List Value) :
    (∃ ns, f.Uses args ns ∧ FitsInt64 (f.exact ns) ∧ f.answer args = .ok (.int (f.exact ns))) ∨
      IsRounded (f.answer args) := by
  by_cases hf : f = sum
  · subst hf
    refine (answer_sum_cases args).imp (fun ⟨ns, huses, htotals, hanswer⟩ => ?_) And.right
    have hfits : FitsInt64 (0 + ns.sum) := htotals ns List.prefix_rfl
    exact ⟨ns, huses, (zero_add ns.sum).subst hfits, hanswer⟩
  · exact (answer_of_ne_sum hf args).imp id And.right

/--
An integer answer is the exact sum or product of the values that are used, all of
them integers of 64 bits. Two integers have such an answer if it fits. What does
not fit, and what is not an integer of 64 bits, is rounded.
-/
theorem integer_answers_exact (f : Arithmetic) (args : List Value) :
    (∀ n, f.answer args = .ok (.int n) → ∃ ns, f.Uses args ns ∧ n = f.exact ns ∧ FitsInt64 n) ∧
      (∀ ns, f ≠ sum → f.Uses args ns → FitsInt64 (f.exact ns) →
        f.answer args = .ok (.int (f.exact ns))) ∧
      (∀ ns, f.Uses args ns → ¬ FitsInt64 (f.exact ns) → IsRounded (f.answer args)) ∧
      ∀ vs, f.used? args = some vs → (∃ v ∈ vs, ¬ v.IsInt64) → IsRounded (f.answer args) := by
  refine ⟨fun n hn => ?_, fun ns hf huses hfits => ?_, fun ns huses hfits => ?_,
    fun vs hused ⟨v, hv, hnot⟩ => ?_⟩
  · rcases answer_cases f args with ⟨ns, huses, hfits, hanswer⟩ | hrounded
    · obtain rfl := int_injective (Except.ok.inj (hn.symm.trans hanswer))
      exact ⟨ns, huses, rfl, hfits⟩
    · exact absurd hn (hrounded.ne_int n)
  · rcases answer_of_ne_sum hf args with ⟨ms, huses', _, hanswer⟩ | ⟨hnone, _⟩
    · rw [huses.eq huses', hanswer]
    · exact absurd hfits (hnone ns huses)
  · rcases answer_cases f args with ⟨ms, huses', hfits', _⟩ | hrounded
    · exact absurd (huses.eq huses' ▸ hfits') hfits
    · exact hrounded
  · rcases answer_cases f args with ⟨ns, huses, _⟩ | hrounded
    · obtain rfl := Option.some.inj (hused.symm.trans huses.1)
      obtain ⟨n, hn, rfl⟩ := List.mem_map.mp hv
      exact absurd ⟨n, rfl, huses.2 n hn⟩ hnot
    · exact hrounded

theorem integer_answers_exact_limits :
    multiply.answer [.int 0x4000000000000000, .int (-2), .null] =
        .ok (.int (-0x8000000000000000)) ∧
      IsRounded (multiply.answer [.int (-0x8000000000000000), .int (-1)]) ∧
      IsRounded (add.answer [.int 0x8000000000000000, .int (-1)]) ∧
      ∃ ns, sum.Uses [.array [.int 1, .null, .int 2]] ns ∧ 3 = sum.exact ns := by
  refine ⟨(integer_answers_exact multiply _).2.1 [0x4000000000000000, -2] (by decide)
      ⟨rfl, by decide⟩ (by decide),
    (integer_answers_exact multiply _).2.2.1 [-0x8000000000000000, -1] ⟨rfl, by decide⟩ (by decide),
    (integer_answers_exact add _).2.2.2 _ rfl ⟨.int 0x8000000000000000, by simp, ?_⟩, ?_⟩
  · rintro ⟨n, hn, hfits⟩
    obtain rfl := int_injective hn
    exact absurd hfits (by decide)
  · obtain ⟨ns, huses, hexact, _⟩ :=
      (integer_answers_exact sum [.array [.int 1, .null, .int 2]]).1 3 rfl
    exact ⟨ns, huses, hexact⟩

section Orders

theorem exists_integers_of_perm (hperm : others.Perm values) (hvalues : AreIntegers values ns) :
    ∃ ms, AreIntegers others ms ∧ ms.Perm ns := by
  have hfilter : (others.filter fun v => !v.isNull).Perm (ns.map .int) :=
    hvalues ▸ hperm.filter _
  have hns : List.Forall₂ (fun v n => v = Value.int n) (ns.map .int) ns :=
    List.forall₂_map_left_iff.mpr (List.forall₂_same.mpr fun _ _ => rfl)
  obtain ⟨ms, hms, hperm⟩ := List.perm_comp_forall₂ hfilter hns
  have hmap : List.Forall₂ Eq (others.filter fun v => !v.isNull) (ms.map .int) :=
    List.forall₂_map_right_iff.mpr hms
  rw [List.forall₂_eq_eq_eq] at hmap
  exact ⟨ms, hmap, hperm⟩

theorem exists_values_of_perm (hperm : ms.Perm ns) (hvalues : AreIntegers values ns) :
    ∃ others, others.Perm values ∧ AreIntegers others ms := by
  refine ⟨ms.map .int ++ values.filter fun v => !!v.isNull, ?_, ?_⟩
  · refine ((hperm.map Value.int).append_right _).trans ?_
    rw [← hvalues]
    exact List.filter_append_perm _ values
  · have hints : ((ms.map Value.int).filter fun v => !v.isNull) = ms.map .int :=
      List.filter_eq_self.mpr (List.forall_mem_map.mpr fun _ _ => rfl)
    rw [AreIntegers, List.filter_append, hints, List.filter_filter]
    simp

theorem answer_sum_of_perm (hvalues : AreIntegers values ns) (hns : ∀ n ∈ ns, FitsInt64 n)
    (hperm : others.Perm values) (hothers : AreIntegers others ms) (htotals : TotalsFit 0 ms)
    (hargs : args = others ∨ args = [.array others]) : sum.answer args = .ok (.int ns.sum) := by
  obtain ⟨ms', hms, hperm⟩ := exists_integers_of_perm hperm hvalues
  obtain rfl := hothers.eq hms
  rw [answer_sum, summands_eq hothers hargs,
    sum_eq_int hothers (fun m hm => hns m (hperm.subset hm)) htotals, hperm.sum_eq]
  rfl

/--
Integers of 64 bits, given one by one or in an array, are summed up exactly, as long
as their running totals fit, and otherwise the answer is rounded. All orders of the
values with totals that fit have the same answer. There is such an order if the sum
fits, and if besides no two of the integers have opposite signs, every order is one.
-/
theorem sum_exact_while_totals_fit (values : List Value) (ns : List Int)
    (hvalues : AreIntegers values ns) (hns : ∀ n ∈ ns, FitsInt64 n) :
    (∀ args, args = values ∨ args = [.array values] →
      (TotalsFit 0 ns → sum.answer args = .ok (.int ns.sum)) ∧
        (¬ TotalsFit 0 ns → IsRounded (sum.answer args))) ∧
      (∀ others ms args, others.Perm values → AreIntegers others ms → TotalsFit 0 ms →
        (args = others ∨ args = [.array others]) → sum.answer args = .ok (.int ns.sum)) ∧
      (FitsInt64 ns.sum → ∃ others, others.Perm values ∧
        ∀ args, args = others ∨ args = [.array others] → sum.answer args = .ok (.int ns.sum)) ∧
      (FitsInt64 ns.sum → ((∀ n ∈ ns, 0 ≤ n) ∨ ∀ n ∈ ns, n ≤ 0) →
        ∀ others args, others.Perm values → (args = others ∨ args = [.array others]) →
          sum.answer args = .ok (.int ns.sum)) := by
  refine ⟨fun args hargs => ⟨fun htotals => ?_, fun htotals => ?_⟩,
    fun others ms args hperm hms htotals hargs => ?_, fun hsum => ?_,
    fun hsum hsigns others args hperm hargs => ?_⟩
  · exact answer_sum_of_perm hvalues hns (.refl _) hvalues htotals hargs
  · rw [answer_sum, summands_eq hvalues hargs]
    exact (isRounded_sum fun ms hms _ h => htotals (hvalues.eq hms ▸ h)).mapError _
  · exact answer_sum_of_perm hvalues hns hperm hms htotals hargs
  · obtain ⟨ms, hperm, htotals⟩ :=
      exists_perm_totalsFit hns (by decide) ((zero_add ns.sum).symm ▸ hsum)
    obtain ⟨others, hothers, hms⟩ := exists_values_of_perm hperm hvalues
    exact ⟨others, hothers, fun _ => answer_sum_of_perm hvalues hns hothers hms htotals⟩
  · obtain ⟨ms, hms, hperm'⟩ := exists_integers_of_perm hperm hvalues
    have hsigns' : (∀ m ∈ ms, 0 ≤ m) ∨ ∀ m ∈ ms, m ≤ 0 :=
      hsigns.imp (fun h m hm => h m (hperm'.subset hm)) fun h m hm => h m (hperm'.subset hm)
    have htotals : TotalsFit 0 ms :=
      totalsFit_of_signs hsigns' (by decide) (by rwa [hperm'.sum_eq, zero_add])
    exact answer_sum_of_perm hvalues hns hperm hms htotals hargs

theorem sum_exact_while_totals_fit_cancelling :
    sum.answer [.int 0x7FFFFFFFFFFFFFFF, .null, .int (-1), .int 1] =
        .ok (.int 0x7FFFFFFFFFFFFFFF) ∧
      IsRounded (sum.answer [.array [.int 0x7FFFFFFFFFFFFFFF, .int 1, .int (-1)]]) ∧
      (∃ others, others.Perm [.int 0x7FFFFFFFFFFFFFFF, .int 1, .int (-1)] ∧
        sum.answer [.array others] = .ok (.int 0x7FFFFFFFFFFFFFFF)) ∧
      sum.answer [.array [.int 0, .int (-0x8000000000000000)]] =
        .ok (.int (-0x8000000000000000)) := by
  have hlast := sum_exact_while_totals_fit [.int 0x7FFFFFFFFFFFFFFF, .null, .int (-1), .int 1]
    [0x7FFFFFFFFFFFFFFF, -1, 1] rfl (by decide)
  have hfirst := sum_exact_while_totals_fit [.int 0x7FFFFFFFFFFFFFFF, .int 1, .int (-1)]
    [0x7FFFFFFFFFFFFFFF, 1, -1] rfl (by decide)
  have hlowest := sum_exact_while_totals_fit [.int (-0x8000000000000000), .int 0]
    [-0x8000000000000000, 0] rfl (by decide)
  obtain ⟨others, hperm, hothers⟩ := hfirst.2.2.1 (by decide)
  exact ⟨(hlast.1 _ (.inl rfl)).1 (by decide), (hfirst.1 _ (.inr rfl)).2 (by decide),
    ⟨others, hperm, hothers _ (.inr rfl)⟩,
    hlowest.2.2.2 (by decide) (.inr (by decide)) _ _ (.swap _ _ []) (.inr rfl)⟩

/-- A sum that fits is rounded if a running total leaves the range. -/
theorem sum_rounded_past_limit :
    (∀ n ∈ ([0x7FFFFFFFFFFFFFFF, 1, -1] : List Int), FitsInt64 n) ∧
      FitsInt64 ([0x7FFFFFFFFFFFFFFF, 1, -1] : List Int).sum ∧
      sum.answer [.int 0x7FFFFFFFFFFFFFFF, .int 1, .int (-1)] ≠
        .ok (.int ([0x7FFFFFFFFFFFFFFF, 1, -1] : List Int).sum) := by
  have hrounded : IsRounded (Value.sum [.int 0x7FFFFFFFFFFFFFFF, .int 1, .int (-1)]) := by
    refine isRounded_sum fun ns hns _ htotals => ?_
    have hthree : AreIntegers [.int 0x7FFFFFFFFFFFFFFF, .int 1, .int (-1)]
        [0x7FFFFFFFFFFFFFFF, 1, -1] := rfl
    obtain rfl := hthree.eq hns
    exact absurd htotals (by decide)
  exact ⟨by decide, by decide, (hrounded.mapError LoadError.transform).ne_int _⟩

end Orders

end Arithmetic

end Reshape
