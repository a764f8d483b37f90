import Reshape.Yaml.Token

/-! # Nodes

The tree of a YAML document. An alias refers to an anchored node by a number.
The count of anchor names met before gives a new anchor its number, so an anchor
that is declared anew can take over the number of another; of several nodes with
one number the last counts. The tree of a text that is not well formed goes as far
as the text can be read.
-/

namespace Reshape.Yaml

/-- What a node carries besides its contents. -/
structure Properties where
  mark : Mark
  anchor : Option Nat
  tag : Option Tag

/-- Why a text cannot be read on. -/
inductive TextFault where
  | malformed
  | unknownAnchor (mark : Mark)
deriving DecidableEq

inductive Node where
  | scalar (properties : Properties) (text : String) (style : ScalarStyle)
  | sequence (properties : Properties) (items : List Node)
  | mapping (properties : Properties) (entries : List (Node × Node))
  | reference (mark : Mark) (number : Nat)
  /-- The text cannot be read from here on. -/
  | broken (fault : TextFault)

/-- What follows the first document of a text. -/
inductive Ending where
  | whole
  /-- Another document, or a text that is none. -/
  | further
  | broken (fault : TextFault)
deriving DecidableEq

/-- The content of a text: nothing at all, or a document and what follows it. -/
inductive Content where
  | void (stop : Mark)
  | document (root : Node) (ending : Ending)

def Content.isWhole : Content → Bool
  | void _ => true
  | document _ ending => ending == .whole

namespace Node

def mark : Node → Except TextFault Mark
  | scalar p _ _ | sequence p _ | mapping p _ => .ok p.mark
  | reference m _ => .ok m
  | broken fault => .error fault

def missing (m : Mark) : Node := scalar ⟨m, none, none⟩ "" .plain

mutual

/-- The beginnings and ends of nodes in a document. -/
def eventCount : Node → Nat
  | scalar _ _ _ | reference _ _ => 1
  | sequence _ items => eventCountItems items + 1
  | mapping _ entries => eventCountEntries entries + 1
  | broken _ => 0

def eventCountItems : List Node → Nat
  | [] => 1
  | broken _ :: _ => 0
  | n :: rest => n.eventCount + eventCountItems rest

def eventCountEntries : List (Node × Node) → Nat
  | [] => 1
  | (broken _, _) :: _ => 0
  | (k, v) :: rest => k.eventCount + v.eventCount + eventCountEntries rest

end

mutual

def fault? : Node → Option TextFault
  | scalar _ _ _ | reference _ _ => none
  | sequence _ items => faultItems? items
  | mapping _ entries => faultEntries? entries
  | broken fault => some fault

def faultItems? : List Node → Option TextFault
  | [] => none
  | n :: rest => n.fault? <|> faultItems? rest

def faultEntries? : List (Node × Node) → Option TextFault
  | [] => none
  | (k, v) :: rest => k.fault? <|> v.fault? <|> faultEntries? rest

end

def anchoredAs (p : Properties) (n : Node) : List (Nat × Node) :=
  match p.anchor with
  | some number => [(number, n)]
  | none => []

mutual

/-- The anchored nodes with their numbers, in the order in which they begin. -/
def anchored : Node → List (Nat × Node)
  | scalar p text style => anchoredAs p (scalar p text style)
  | sequence p items => anchoredAs p (sequence p items) ++ anchoredItems items
  | mapping p entries => anchoredAs p (mapping p entries) ++ anchoredEntries entries
  | reference _ _ | broken _ => []

def anchoredItems : List Node → List (Nat × Node)
  | [] => []
  | n :: rest => n.anchored ++ anchoredItems rest

def anchoredEntries : List (Node × Node) → List (Nat × Node)
  | [] => []
  | (k, v) :: rest => k.anchored ++ v.anchored ++ anchoredEntries rest

end

end Node

end Reshape.Yaml
