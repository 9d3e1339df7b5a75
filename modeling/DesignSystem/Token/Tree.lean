import DesignSystem.Json.Printer

/-!
# Token trees

A token tree is a nested map whose leaves are raw values or references to other leaves. Leaves have
paths, the keys that lead to them; walking a tree depth first in insertion order lists its leaves.
-/

set_option autoImplicit false

namespace DesignSystem.Token

/-- The value of a leaf. -/
inductive Leaf
  | text (s : String)
  | number (n : Json.Number)
  | flag (b : Bool)
  /-- A list of scalars, such as the fonts to try in turn. -/
  | list (items : List String)
  /-- The dotted path of another leaf. -/
  | reference (target : String)
  deriving DecidableEq

/-- A leaf, or a group of named nodes. -/
inductive Node
  | leaf (value : Leaf)
  | group (entries : List (String × Node))

/-- Named nodes in order of insertion. -/
abbrev Group := Entries Node

/-- The keys that lead to a leaf. -/
abbrev Path := List String

namespace Leaf

/-- Whether a leaf refers to another one. -/
def isReference : Leaf → Bool
  | reference _ => true
  | _ => false

/-- The value as it stands in stylesheets and string literals. -/
def render : Leaf → String
  | text s => s
  | number n => n.text
  | flag b => if b then "true" else "false"
  | list items => Text.join ", " items
  | reference target => "\x7b" ++ target ++ "\x7d"

end Leaf

namespace Group

/-- The leaf at a path. No leaf has the empty path. -/
def lookup : Path → Group → Option Leaf
  | [], _ => none
  | [last], g =>
    match g.get? last with
    | some (.leaf v) => some v
    | _ => none
  | key :: next :: rest, g =>
    match g.get? key with
    | some (.group child) => lookup (next :: rest) child
    | _ => none

/-- The group under a key, or an empty one if there is a leaf or nothing. -/
def child (key : String) (g : Group) : Group :=
  match g.get? key with
  | some (.group entries) => entries
  | _ => []

/-- Puts a leaf at a path, making the groups that lead to it. A leaf in the way of a group gives
place to it. -/
def insertAt (v : Leaf) : Path → Group → Group
  | [], g => g
  | [last], g => g.insert last (.leaf v)
  | key :: next :: rest, g => g.insert key (.group (insertAt v (next :: rest) (g.child key)))

/-- Puts a leaf at a dotted path. -/
def insertPath (path : String) (v : Leaf) (g : Group) : Group :=
  g.insertAt v (Text.splitAtChar '.' path)

end Group

mutual

/-- The leaves of a node, each with its path below `before`. -/
def Node.leaves (before : Path) : Node → List (Path × Leaf)
  | .leaf v => [(before, v)]
  | .group entries => leavesOf before entries

/-- The leaves of named nodes, each with its path below `before`. -/
def leavesOf (before : Path) : List (String × Node) → List (Path × Leaf)
  | [] => []
  | (key, node) :: rest => Node.leaves (before ++ [key]) node ++ leavesOf before rest

end

/-- The leaves of a group with their paths, depth first in insertion order. -/
def Group.leaves (g : Group) : List (Path × Leaf) := leavesOf [] g

/-- The flat name of a leaf: the keys of its path joined by hyphens. -/
def flatName (path : Path) : String := Text.join "-" path

/-- The leaves of a group under their flat names. -/
def Group.flatten (g : Group) : List (String × Leaf) := g.leaves.map fun l => (flatName l.1, l.2)

end DesignSystem.Token
