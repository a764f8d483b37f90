import Reshape.Extension.Builtin
import Reshape.Proofs.Results

/-! # Regrouping concatenations

What a list of values is joined to is a text, or nothing at all if it has only
nulls. Joining takes lists one after the other to such results one after the
other, with nothing as the unit, so calls may be nested in any way.
-/

namespace Reshape

def Value.IsContainer (v : Value) : Prop := v.kind = .array ∨ v.kind = .object

namespace Concatenation

open Value

/-- What is joined of one value; nothing of a null, which is not the same as no characters. -/
def piece (v : Value) : Except CallFault (Option String) :=
  if v.isNull then .ok none
  else
    match v.scalarText? with
    | some s => .ok (some s)
    | none => .error (.notScalar "concatenate")

def join : Option String → Option String → Option String := Option.merge (· ++ ·)

def joined : List Value → Except CallFault (Option String)
  | [] => .ok none
  | v :: rest => do return join (← piece v) (← joined rest)

def toValue : Option String → Value
  | none => .null
  | some s => .string s

/-- Calls of concatenation, with values or other calls as arguments. -/
inductive Call where
  | value (v : Value)
  | concat (args : List Call)

namespace Call

mutual

def evaluate : Call → Except CallFault Value
  | value v => .ok v
  | concat args => do concatenate (← evaluateAll args)

def evaluateAll : List Call → Except CallFault (List Value)
  | [] => .ok []
  | call :: calls => do return (← call.evaluate) :: (← evaluateAll calls)

end

mutual

def leaves : Call → List Value
  | value v => [v]
  | concat args => leavesIn args

def leavesIn : List Call → List Value
  | [] => []
  | call :: calls => call.leaves ++ leavesIn calls

end

end Call

section Pieces

@[simp] theorem join_none_left (b : Option String) : join none b = b := by
  cases b <;> rfl

@[simp] theorem join_none_right (a : Option String) : join a none = a := by
  cases a <;> rfl

theorem join_assoc (a b c : Option String) : join (join a b) c = join a (join b c) := by
  cases a <;> cases b <;> cases c <;> simp [join, String.append_assoc]

theorem join_eq_none_iff {a b : Option String} : join a b = none ↔ a = none ∧ b = none := by
  cases a <;> cases b <;> simp [join]

theorem piece_toValue (a : Option String) : piece (toValue a) = .ok a := by
  cases a <;> rfl

theorem piece_eq_error_iff {v : Value} {e : CallFault} :
    piece v = .error e ↔ v.IsContainer ∧ e = .notScalar "concatenate" := by
  cases v <;> simp [piece, isNull, scalarText?, IsContainer, kind, eq_comm]

theorem piece_eq_ok_none_iff {v : Value} : piece v = .ok none ↔ v = .null := by
  cases v <;> simp [piece, isNull, scalarText?]

end Pieces

section Lists

variable {xs ys values : List Value}

/-- Joining is a homomorphism from lists to results. -/
theorem joined_append (xs ys : List Value) :
    joined (xs ++ ys) = do return join (← joined xs) (← joined ys) := by
  induction xs with
  | nil => cases h : joined ys <;> simp [joined, h, pure, Except.pure]
  | cons v xs ih =>
    rw [List.cons_append, joined, joined, ih]
    cases piece v with
    | error e => rfl
    | ok a =>
      cases joined xs with
      | error e => rfl
      | ok b =>
        cases joined ys with
        | error e => rfl
        | ok c => exact congrArg Except.ok (join_assoc a b c).symm

theorem joined_singleton (v : Value) : joined [v] = piece v := by
  cases h : piece v <;> simp [joined, h, pure, Except.pure]

theorem joined_filter (values : List Value) :
    joined (values.filter fun v => !v.isNull) = joined values := by
  induction values with
  | nil => rfl
  | cons v values ih =>
    cases hv : v.isNull with
    | false => rw [List.filter_cons_of_pos (by simp [hv]), joined, joined, ih]
    | true =>
      rw [List.filter_cons_of_neg (by simp [hv]), ih, joined, piece, if_pos hv]
      cases joined values <;> simp [pure, Except.pure]

theorem joined_eq_error_iff {e : CallFault} :
    joined values = .error e ↔ (∃ v ∈ values, v.IsContainer) ∧ e = .notScalar "concatenate" := by
  induction values with
  | nil => simp [joined]
  | cons v values ih =>
    simp only [joined, bind_eq_error_iff, piece_eq_error_iff, ih, pure, Except.pure,
      reduceCtorEq, and_false, exists_false, or_false, List.exists_mem_cons_iff]
    constructor
    · rintro (⟨hv, he⟩ | ⟨_, _, hvalues, he⟩)
      · exact ⟨.inl hv, he⟩
      · exact ⟨.inr hvalues, he⟩
    · rintro ⟨hv | hvalues, he⟩
      · exact .inl ⟨hv, he⟩
      · cases hp : piece v with
        | error e' => exact .inl ⟨(piece_eq_error_iff.mp hp).1, he⟩
        | ok a => exact .inr ⟨a, rfl, hvalues, he⟩

theorem joined_eq_ok_none_iff : joined values = .ok none ↔ ∀ v ∈ values, v = .null := by
  induction values with
  | nil => simp [joined]
  | cons v values ih =>
    rw [joined, List.forall_mem_cons, ← piece_eq_ok_none_iff, ← ih]
    cases piece v with
    | error e => simp
    | ok a => cases joined values <;> simp [pure, Except.pure, join_eq_none_iff]

theorem piece_of_scalarText? {v : Value} {s : String} (h : v.scalarText? = some s) :
    piece v = .ok (some s) := by
  cases v <;> simp_all [piece, isNull, scalarText?]

theorem scalarTexts_of_scalarText? {v : Value} {s : String} (h : v.scalarText? = some s) :
    scalarTexts (v :: values) = (scalarTexts values).map (s :: ·) := by
  cases v <;> simp_all [scalarTexts, scalarText?]

theorem joined_eq_scalarTexts (values : List Value) :
    joined values = (scalarTexts values).map fun texts =>
      if texts.isEmpty then none else some (String.join texts) := by
  induction values with
  | nil => rfl
  | cons v values ih =>
    rw [joined, ih]
    cases hv : v.scalarText? with
    | some s =>
      rw [piece_of_scalarText? hv, scalarTexts_of_scalarText? hv]
      cases scalarTexts values with
      | error e => rfl
      | ok texts => cases texts <;> simp [Except.map, pure, Except.pure, join]
    | none =>
      cases v with
      | null =>
        cases h : scalarTexts values <;>
          simp [piece, isNull, scalarTexts, h, Except.map, pure, Except.pure]
      | array items => rfl
      | object members => rfl
      | _ => cases hv

theorem concatenate_eq (values : List Value) :
    concatenate values = (joined values).map toValue := by
  rw [concatenate, joined_eq_scalarTexts]
  cases scalarTexts values with
  | error e => rfl
  | ok texts => cases texts <;> rfl

theorem concatenate_eq_ok_iff {v : Value} :
    concatenate values = .ok v ↔ ∃ a, joined values = .ok a ∧ toValue a = v := by
  rw [concatenate_eq]
  exact map_eq_ok_iff

theorem concatenate_eq_error_iff {e : CallFault} :
    concatenate values = .error e ↔ joined values = .error e := by
  rw [concatenate_eq]
  cases joined values <;> simp [Except.map]

theorem toValue_eq_null_iff {a : Option String} : toValue a = .null ↔ a = none := by
  cases a <;> simp [toValue]

end Lists

section Calls

open Call

mutual

theorem joined_evaluate (call : Call) :
    (call.evaluate >>= fun v => joined [v]) = joined call.leaves := by
  cases call with
  | value v => rfl
  | concat args =>
    rw [evaluate, leaves, ← joined_evaluateAll args]
    cases evaluateAll args with
    | error e => rfl
    | ok values =>
      rw [ok_bind, ok_bind, concatenate_eq]
      cases joined values with
      | error e => rfl
      | ok a => exact (joined_singleton _).trans (piece_toValue a)

theorem joined_evaluateAll (calls : List Call) :
    (evaluateAll calls >>= joined) = joined (leavesIn calls) := by
  cases calls with
  | nil => rfl
  | cons call calls =>
    have ih := joined_evaluateAll calls
    rw [evaluateAll, leavesIn, joined_append, ← joined_evaluate call]
    cases call.evaluate with
    | error e => rfl
    | ok v =>
      simp only [ok_bind, joined_singleton]
      cases hcalls : evaluateAll calls with
      | ok values =>
        rw [← ih, hcalls]
        rfl
      | error e =>
        rw [hcalls, error_bind] at ih
        obtain ⟨_, rfl⟩ := joined_eq_error_iff.mp ih.symm
        rw [← ih]
        cases hv : piece v with
        | ok a => rfl
        | error e => rw [(piece_eq_error_iff.mp hv).2]; rfl

end

theorem evaluate_concat (args : List Call) :
    (concat args).evaluate = concatenate (leavesIn args) := by
  rw [concatenate_eq, ← joined_evaluateAll, evaluate]
  cases evaluateAll args with
  | error e => rfl
  | ok values => exact concatenate_eq values

end Calls

end Concatenation

open Concatenation in
/--
Two lists that can be joined are joined as their results are, and they cannot be
joined together just if one of them cannot, which is if some value is an array or
an object. The result is null just if all values are, and other nulls make no
difference. So a call answers the same as one call with all the values in it.
-/
theorem concatenation_regroups (xs ys : List Value) :
    ((∃ e, Value.concatenate (xs ++ ys) = .error e) ↔
      (∃ e, Value.concatenate xs = .error e) ∨ ∃ e, Value.concatenate ys = .error e) ∧
    ((∃ e, Value.concatenate (xs ++ ys) = .error e) ↔ ∃ v ∈ xs ++ ys, v.IsContainer) ∧
    (∀ v, Value.concatenate (xs ++ ys) = .ok v → ∃ left right,
      Value.concatenate xs = .ok left ∧ Value.concatenate ys = .ok right ∧
        Value.concatenate [left, right] = .ok v) ∧
    (Value.concatenate (xs ++ ys) = .ok .null ↔ ∀ v ∈ xs ++ ys, v = .null) ∧
    (∀ zs, zs.filter (fun v => !v.isNull) = (xs ++ ys).filter (fun v => !v.isNull) →
      Value.concatenate zs = Value.concatenate (xs ++ ys)) ∧
    ∀ args, (Call.concat args).evaluate = Value.concatenate (Call.leavesIn args) := by
  have herror (values : List Value) :
      (∃ e, Value.concatenate values = .error e) ↔ ∃ v ∈ values, v.IsContainer := by
    simp only [concatenate_eq_error_iff, joined_eq_error_iff]
    simp
  refine ⟨?_, herror _, ?_, ?_, ?_, evaluate_concat⟩
  · simp only [herror, List.mem_append, or_and_right, exists_or]
  · intro v hv
    obtain ⟨r, hr, rfl⟩ := concatenate_eq_ok_iff.mp hv
    rw [joined_append] at hr
    obtain ⟨a, ha, b, hb, hab⟩ :
        ∃ a, joined xs = .ok a ∧ ∃ b, joined ys = .ok b ∧ join a b = r := by
      simpa only [bind_eq_ok_iff, pure_eq_ok_iff] using hr
    refine ⟨toValue a, toValue b, ?_, ?_, ?_⟩
    · exact concatenate_eq_ok_iff.mpr ⟨a, ha, rfl⟩
    · exact concatenate_eq_ok_iff.mpr ⟨b, hb, rfl⟩
    · refine concatenate_eq_ok_iff.mpr ⟨r, ?_, rfl⟩
      rw [joined, joined_singleton, piece_toValue, piece_toValue, ← hab]
      rfl
  · rw [concatenate_eq_ok_iff, ← joined_eq_ok_none_iff]
    simp only [toValue_eq_null_iff, exists_eq_right]
  · intro zs hzs
    rw [concatenate_eq, concatenate_eq, ← joined_filter, hzs, joined_filter]

theorem concatenation_regroups_mixed :
    Value.concatenate ([.string "", .null] ++ [.int 1, .bool true]) = .ok (.string "1true") ∧
    (∃ left right, Value.concatenate [.string "", .null] = .ok left ∧
      Value.concatenate [.int 1, .bool true] = .ok right ∧
        Value.concatenate [left, right] = .ok (.string "1true")) ∧
    Value.concatenate [.null, .string "", .int 1, .null, .bool true] =
      Value.concatenate ([.string "", .null] ++ [.int 1, .bool true]) := by
  obtain ⟨_, _, hjoin, _, hnulls, _⟩ :=
    concatenation_regroups [.string "", .null] [.int 1, .bool true]
  have hwhole : Value.concatenate ([.string "", .null] ++ [.int 1, .bool true]) =
      .ok (.string "1true") := by rfl
  exact ⟨hwhole, hjoin _ hwhole, hnulls _ rfl⟩

end Reshape
