import Reshape.Fault

/-! # Defaults

Fallback values in the shape of the target object. A default is found at a list
of keys; the defaults of an inline tree are the object under its key, and are empty
where no object is declared. Looking a key up in them is the same as looking up all
keys that lead to it in the defaults of the root.
-/

namespace Reshape

/-- A tree of fallback values, keyed like the target. -/
structure Defaults where
  root : Members
deriving BEq, Inhabited

namespace Defaults

def empty : Defaults := ⟨[]⟩

/-- Only an object can be used as defaults. -/
def ofValue : Value → Except Error Defaults
  | .object members => .ok ⟨members⟩
  | other => .error (.invalidDefaults other.kind)

def toValue (d : Defaults) : Value := .object d.root

def insert (key : String) (value : Value) (d : Defaults) : Defaults := ⟨d.root.insert key value⟩

def get? (d : Defaults) (key : String) : Option Value := d.root.lookup key

def child? (v : Value) (key : String) : Option Value :=
  match v with
  | .object members => members.lookup key
  | _ => none

/-- The default at a list of keys; there is none at the empty list. -/
def resolve (d : Defaults) : List String → Option Value
  | [] => none
  | key :: keys => (d.get? key).bind fun v => keys.foldlM child? v

/-- The defaults under a key, empty unless an object is declared there. -/
def subtree (d : Defaults) (key : String) : Defaults :=
  match d.get? key with
  | some (.object members) => ⟨members⟩
  | _ => empty

/-- The defaults of the inline tree to which a list of keys leads. -/
def under (d : Defaults) (keys : List String) : Defaults := keys.foldl subtree d

variable {d : Defaults} {key : String} {keys : List String}

@[simp] theorem under_nil : d.under [] = d := rfl

@[simp] theorem under_cons : d.under (key :: keys) = (d.subtree key).under keys := rfl

theorem subtree_under : (d.under keys).subtree key = d.under (keys ++ [key]) := by
  simp [under]

@[simp] theorem resolve_singleton : d.resolve [key] = d.get? key := by
  cases h : d.get? key <;> simp [resolve, h]

theorem get?_subtree (other : String) :
    (d.subtree key).get? other = (d.get? key).bind (child? · other) := by
  unfold subtree
  cases d.get? key with
  | none => rfl
  | some v => cases v <;> rfl

theorem resolve_subtree (hkeys : keys ≠ []) :
    (d.subtree key).resolve keys = d.resolve (key :: keys) := by
  obtain ⟨next, rest, rfl⟩ := List.exists_cons_of_ne_nil hkeys
  simp [resolve, get?_subtree, Option.bind_assoc]

/-- The default of a key in an inline tree is the one at its place in the root. -/
theorem get?_under : (d.under keys).get? key = d.resolve (keys ++ [key]) := by
  induction keys generalizing d with
  | nil => simp
  | cons first rest ih => rw [under_cons, ih, resolve_subtree (by simp), List.cons_append]

end Defaults

end Reshape
