import Mathlib.Data.List.Forall2
import Reshape.Proofs.Results
import Reshape.Yaml.Node
import Reshape.Yaml.Scalar

/-! # Trees of nodes

A node without tags and aliases has a tree: its mappings, its sequences and its
scalars with their types. A scalar whose tree is a boolean is plain, and one whose
tree is a text is written as that text.
-/

namespace Reshape

open Yaml

/-- The tree of a node, if it has no tags and aliases and is not nested too deeply. -/
def Yaml.Node.tree? : Nat → Node → Option Tree
  | _, .scalar p text style =>
    if p.tag.isSome then none
    else (Scalar.ofText text style none).toOption.bind Scalar.toTree?
  | depth + 1, .sequence p items =>
    if p.tag.isSome then none else (items.mapM (tree? depth)).map .sequence
  | depth + 1, .mapping p entries =>
    if p.tag.isSome then none
    else
      (entries.mapM fun (entry : Node × Node) => do
        return (← tree? depth entry.1, ← tree? depth entry.2)).map .mapping
  | _, _ => none

def Yaml.Node.EntryTrees (depth : Nat) (entries : List (Node × Node))
    (trees : List (Tree × Tree)) : Prop :=
  List.Forall₂ (fun e t => e.1.tree? depth = some t.1 ∧ e.2.tree? depth = some t.2) entries trees

/-- The ways in which a node has a tree. -/
inductive Yaml.Node.HasTree : Nat → Node → Tree → Prop where
  | scalar {depth : Nat} {p : Properties} {text : String} {style : ScalarStyle} {s : Scalar}
    {t : Tree} (htag : p.tag = none) (hs : Scalar.ofText text style none = .ok s)
    (ht : s.toTree? = some t) : HasTree depth (.scalar p text style) t
  | sequence {depth : Nat} {p : Properties} {items : List Node} {trees : List Tree}
    (htag : p.tag = none)
    (hitems : List.Forall₂ (fun item t => item.tree? depth = some t) items trees) :
    HasTree (depth + 1) (.sequence p items) (.sequence trees)
  | mapping {depth : Nat} {p : Properties} {entries : List (Node × Node)}
    {trees : List (Tree × Tree)} (htag : p.tag = none) (hentries : EntryTrees depth entries trees) :
    HasTree (depth + 1) (.mapping p entries) (.mapping trees)

theorem Yaml.Node.hasTree {depth : Nat} {n : Node} {t : Tree} (h : n.tree? depth = some t) :
    HasTree depth n t := by
  cases n with
  | scalar p text style =>
    have htree : (scalar p text style).tree? depth =
        if p.tag.isSome then none
        else (Scalar.ofText text style none).toOption.bind Scalar.toTree? := by
      cases depth <;> rfl
    rw [htree] at h
    split at h
    · cases h
    · rename_i htag
      obtain ⟨s, hs, ht⟩ := Option.bind_eq_some_iff.mp h
      exact .scalar (Option.not_isSome_iff_eq_none.mp htag)
        (congrArg Except.ok (Option.some.inj hs)) ht
  | sequence p items =>
    cases depth with
    | zero => cases h
    | succ depth =>
      rw [tree?] at h
      split at h
      · cases h
      · rename_i htag
        obtain ⟨trees, htrees, rfl⟩ := Option.map_eq_some_iff.mp h
        exact .sequence (Option.not_isSome_iff_eq_none.mp htag) (mapM_eq_some_iff.mp htrees)
  | mapping p entries =>
    cases depth with
    | zero => cases h
    | succ depth =>
      rw [tree?] at h
      split at h
      · cases h
      · rename_i htag
        obtain ⟨trees, htrees, rfl⟩ := Option.map_eq_some_iff.mp h
        refine .mapping (Option.not_isSome_iff_eq_none.mp htag) ?_
        refine (mapM_eq_some_iff.mp htrees).imp fun entry t h => ?_
        simpa [Option.bind_eq_some_iff, Prod.ext_iff] using h
  | reference m number => cases depth <;> cases h
  | broken fault => cases depth <;> cases h

namespace Yaml.Scalar

variable {n : Int} {cs : List Char} {scalar : Scalar} {text : String}

theorem ofInt?_cases (h : ofInt? n = some scalar) : scalar = int n ∨ scalar = wide n := by
  rw [ofInt?] at h
  split at h
  · exact .inl (Option.some.inj h).symm
  split at h
  · exact .inr (Option.some.inj h).symm
  · cases h

theorem int?_cases (h : int? cs = some scalar) : ∃ n, scalar = int n ∨ scalar = wide n := by
  unfold int? at h
  split at h
  all_goals
    obtain ⟨n, _, hn⟩ := Option.bind_eq_some_iff.mp h
    exact ⟨_, ofInt?_cases hn⟩

/-- A plain scalar that stands for a boolean or a text is written as such. -/
theorem ofPlain_cases (text : String) :
    (∀ b, ofPlain text = bool b → bool? text = some b) ∧
      ∀ s, ofPlain text = string s → text = s := by
  unfold ofPlain
  dsimp only
  split
  · simp
  cases hb : bool? text with
  | some b => simp
  | none =>
    cases hi : int? text.toList with
    | some scalar =>
      obtain ⟨n, rfl | rfl⟩ := int?_cases hi <;> simp
    | none =>
      dsimp only
      split
      · simp
      split <;> simp

theorem ofText_none (text : String) (style : ScalarStyle) :
    ofText text style none = .ok (if style = .plain then ofPlain text else string text) := rfl

theorem plain_of_toTree?_bool {style : ScalarStyle} {b : Bool}
    (h : ofText text style none = .ok scalar) (ht : scalar.toTree? = some (.bool b)) :
    style = .plain ∧ bool? text = some b := by
  have hscalar : scalar = bool b := by
    cases scalar <;> simp_all [toTree?]
  rw [ofText_none, Except.ok.injEq, hscalar] at h
  split at h
  · rename_i hstyle
    exact ⟨hstyle, (ofPlain_cases text).1 b h⟩
  · cases h

theorem eq_of_toTree?_string {style : ScalarStyle} {s : String}
    (h : ofText text style none = .ok scalar) (ht : scalar.toTree? = some (.string s)) :
    text = s := by
  have hscalar : scalar = string s := by
    cases scalar <;> simp_all [toTree?]
  rw [ofText_none, Except.ok.injEq, hscalar] at h
  split at h
  · exact (ofPlain_cases text).2 s h
  · exact string.inj h

end Yaml.Scalar

end Reshape
