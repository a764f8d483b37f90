import Reshape.Document.Basic
import Reshape.Tree

/-! # Forms of fields

The form of a field or an argument is not named, it has to be found out. Forms
are tried in a fixed order, and the first that fits is taken. A record fits a
mapping of its fields, given by name or by position, or a list of them.
-/

namespace Reshape

/-- A field of a record, or none for a key that is no field. -/
inductive FieldKey where
  | field (n : Nat)
  | other
deriving DecidableEq

/-- The field of a record that a key names. Only texts and natural numbers are keys. -/
def FieldKey.ofTree? (names : List String) : Tree → Option FieldKey
  | .string name =>
    match names.findIdx? (· == name) with
    | some n => some (.field n)
    | none => some .other
  | .number (.int n) =>
    if n < 0 then none else if n < names.length then some (.field n.toNat) else some .other
  | _ => none

namespace Form

/-- The fields given by entries; no other keys, and none twice. -/
def fields? (names : List String) : List (Tree × Tree) → Option (List (Nat × Tree))
  | [] => some []
  | (key, value) :: rest => do
    let fields ← fields? names rest
    match FieldKey.ofTree? names key with
    | some (.field n) => if (fields.lookup n).isSome then none else some ((n, value) :: fields)
    | _ => none

def string? : Tree → Option String
  | .string s => some s
  | _ => none

def bool? : Tree → Option Bool
  | .bool b => some b
  | _ => none

def optionalString? : Tree → Option (Option String)
  | .null => some none
  | .string s => some (some s)
  | _ => none

def orElse (default : α) (read? : Tree → Option α) : Option Tree → Option α
  | none => some default
  | some t => read? t

def positions? (size : Nat) (items : List Tree) : Option (List (Nat × Tree)) :=
  if items.length ≤ size then some (items.zipIdx.map fun (t, n) => (n, t)) else none

/-- The fields of a record in either form. -/
def record? (names : List String) : Tree → Option (List (Nat × Tree))
  | .mapping entries => fields? names entries
  | .sequence items => positions? names.length items
  | _ => none

end Form

open Form

/-- A literal needs a value, and its other keys are ignored. -/
def Argument.ofEntries? : List (Tree × Tree) → Option (Option Value)
  | [] => some none
  | (key, value) :: rest => do
    let found ← ofEntries? rest
    match ← FieldKey.ofTree? ["value"] key with
    | .field _ => if found.isSome then none else some (some (← value.toValue?))
    | .other => some found

def Argument.ofTree? : Tree → Option Argument
  | .string text => some (.path text)
  | .mapping entries => (Argument.ofEntries? entries).bind fun found => found.map .literal
  | _ => none

def arguments? : Tree → Option (List Argument)
  | .sequence items => items.mapM Argument.ofTree?
  | _ => none

namespace FieldSpec

def ruleOf? (t : Tree) : Option FieldSpec := do
  let fields ← record? ["path", "flatten"] t
  return .rule (← string? (← fields.lookup 0)) (← orElse false bool? (fields.lookup 1))

def callOf? (t : Tree) : Option FieldSpec := do
  let fields ← record? ["call", "args"] t
  return .call (← string? (← fields.lookup 0)) (← orElse [] arguments? (fields.lookup 1))

def mapperOf? (t : Tree) : Option FieldSpec := do
  let fields ← record? ["mapper", "source"] t
  return .mapper (← string? (← fields.lookup 0)) (← orElse none optionalString? (fields.lookup 1))

mutual

/-- The first form that fits: a path, a rule, a call, a mapper or a tree. -/
def ofTree? : Tree → Option FieldSpec
  | .string text => some (.path text)
  | .mapping entries =>
    let t := Tree.mapping entries
    (ruleOf? t <|> callOf? t <|> mapperOf? t) <|> (onlyFields? entries).map .tree
  | .sequence items =>
    let t := Tree.sequence items
    (ruleOf? t <|> callOf? t <|> mapperOf? t) <|> (onlyItem? items).map .tree
  | _ => none

def onlyFields? : List (Tree × Tree) → Option (List (String × FieldSpec))
  | [(key, .mapping entries)] =>
    if FieldKey.ofTree? ["fields"] key = some (.field 0) then ofEntries? entries else none
  | _ => none

def onlyItem? : List Tree → Option (List (String × FieldSpec))
  | [.mapping entries] => ofEntries? entries
  | _ => none

def ofEntries? : List (Tree × Tree) → Option (List (String × FieldSpec))
  | [] => some []
  | (key, t) :: rest => do
    let name ← string? key
    let spec ← ofTree? t
    let more ← ofEntries? rest
    if (more.map Prod.fst).contains name then none else some ((name, spec) :: more)

end

end FieldSpec

end Reshape
