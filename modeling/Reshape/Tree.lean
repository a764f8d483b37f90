import Reshape.Value

/-! # Trees of typed scalars

What a value and a document node have in common. The entries of a mapping are in
order, their keys may be any trees, and keys may repeat.
-/

namespace Reshape

inductive Tree where
  | null
  | bool (b : Bool)
  | number (n : Number)
  | string (s : String)
  | sequence (items : List Tree)
  | mapping (entries : List (Tree × Tree))
deriving Inhabited

namespace Tree

mutual

def same : Tree → Tree → Bool
  | null, null => true
  | bool b, bool c => b = c
  | number n, number m => n = m
  | string s, string t => s = t
  | sequence items, sequence others => sameItems items others
  | mapping entries, mapping others => sameEntries entries others
  | _, _ => false

def sameItems : List Tree → List Tree → Bool
  | [], [] => true
  | t :: rest, u :: others => same t u && sameItems rest others
  | _, _ => false

def sameEntries : List (Tree × Tree) → List (Tree × Tree) → Bool
  | [], [] => true
  | (k, v) :: rest, (l, w) :: others => (same k l && same v w) && sameEntries rest others
  | _, _ => false

end

mutual

theorem same_iff (t u : Tree) : same t u ↔ t = u := by
  cases t <;> cases u <;> simp [same, sameItems_iff, sameEntries_iff]

theorem sameItems_iff (items others : List Tree) : sameItems items others ↔ items = others := by
  match items, others with
  | [], [] => simp [sameItems]
  | [], _ :: _ => simp [sameItems]
  | _ :: _, [] => simp [sameItems]
  | t :: rest, u :: others => simp [sameItems, same_iff t u, sameItems_iff rest others]

theorem sameEntries_iff (entries others : List (Tree × Tree)) :
    sameEntries entries others ↔ entries = others := by
  match entries, others with
  | [], [] => simp [sameEntries]
  | [], _ :: _ => simp [sameEntries]
  | _ :: _, [] => simp [sameEntries]
  | (k, v) :: rest, (l, w) :: others =>
    simp [sameEntries, same_iff k l, same_iff v w, sameEntries_iff rest others]

end

instance : DecidableEq Tree := fun t u => decidable_of_iff _ (same_iff t u)

mutual

def ofValue : Value → Tree
  | .null => null
  | .bool b => bool b
  | .number n => number n
  | .string s => string s
  | .array items => sequence (ofItems items)
  | .object members => mapping (ofMembers members)

def ofItems : List Value → List Tree
  | [] => []
  | v :: rest => ofValue v :: ofItems rest

def ofMembers : List (String × Value) → List (Tree × Tree)
  | [] => []
  | (k, v) :: rest => (string k, ofValue v) :: ofMembers rest

end

mutual

/--
A tree as a value, if the keys of its mappings are texts. Of a repeated key the
last entry counts, and a number that is not finite becomes null.
-/
def toValue? : Tree → Option Value
  | null => some .null
  | bool b => some (.bool b)
  | number (.int n) => some (.number (.int n))
  | number (.float x) => some ((Value.ofBinary64? x).getD .null)
  | string s => some (.string s)
  | sequence items => (toItems? items).map .array
  | mapping entries => (toMembers? entries).map fun ms => .object (Members.ofList ms)

def toItems? : List Tree → Option (List Value)
  | [] => some []
  | t :: rest => do return (← toValue? t) :: (← toItems? rest)

def toMembers? : List (Tree × Tree) → Option (List (String × Value))
  | [] => some []
  | (k, t) :: rest => do
    match k with
    | string key => return (key, ← toValue? t) :: (← toMembers? rest)
    | _ => none

end

end Tree

end Reshape
