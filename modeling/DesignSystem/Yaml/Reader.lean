import DesignSystem.Yaml.Item

/-!
# Reading YAML

What belongs to an item stands further to the right; the dashes of a list may also stand right
below its key. The items so form trees, and the trees of one level make up a list, a map, or one
value.
-/

set_option autoImplicit false

namespace DesignSystem.Yaml

/-- An item with those that belong to it. -/
inductive Tree
  | node (item : Item) (below : List Tree)

namespace Tree

/-- The item at the root. -/
def item : Tree → Item
  | node item _ => item

end Tree

/-- Whether a tree that follows an item belongs to it. -/
def Item.owns (i : Item) (t : Tree) : Bool :=
  match i.marker, t.item.marker with
  | .value _, _ => false
  | .key _, .dash => i.column ≤ t.item.column
  | _, _ => i.column < t.item.column

/-- Puts an item in front of trees, of which the first ones may belong to it. -/
def Item.plant (i : Item) (trees : List Tree) : List Tree :=
  .node i (trees.takeWhile i.owns) :: trees.dropWhile i.owns

/-- The trees of items. -/
def treesOf (items : List Item) : List Tree := items.foldr Item.plant []

/-- Whether trees start in one column. -/
def aligned (column : Nat) (trees : List Tree) : Bool := trees.all (·.item.column = column)

/-- Whether what belongs to a key is written on its line only if it is a value. -/
def startsBelow (line : Nat) (trees : List Tree) : Bool :=
  trees.all fun t =>
    match t.item.marker with
    | .value _ => true
    | _ => line < t.item.line

/-- The text of a plain scalar that goes on over lines. A line break counts as a space, and of
several one less counts as such. -/
def folded? (line : Nat) (text : String) : List Tree → Option String
  | [] => some text
  | .node ⟨next, _, .value (.scalar more true)⟩ _ :: rest =>
    if next ≤ line then none
    else
      let gap := if next = line + 1 then " " else Text.repeated '\n' (next - line - 1)
      folded? next (text ++ gap ++ more) rest
  | _ :: _ => none

/-- The node of values. -/
def valueOf? : List Tree → Option Node
  | [] => some .blank
  | [.node ⟨_, _, .value node⟩ _] => some node
  | .node ⟨line, _, .value (.scalar text true)⟩ _ :: rest =>
    (folded? line text rest).map (.scalar · true)
  | _ => none

mutual

/-- The node of the trees of one level. -/
def levelOf? : List Tree → Option Node
  | [] => some .blank
  | .node i below :: rest =>
    match i.marker with
    | .dash => do
      let first ← levelOf? below
      let others ← listOf? rest
      if aligned i.column rest then some (.list (first :: others)) else none
    | .key name => do
      let first ← levelOf? below
      let others ← mapOf? rest
      if aligned i.column rest && startsBelow i.line below then
        some (.map ((name, first) :: others))
      else none
    | .value _ => valueOf? (.node i below :: rest)

/-- The items below dashes. -/
def listOf? : List Tree → Option (List Node)
  | [] => some []
  | .node i below :: rest =>
    match i.marker with
    | .dash => do (← levelOf? below) :: (← listOf? rest)
    | _ => none

/-- The entries of keys. -/
def mapOf? : List Tree → Option (List (String × Node))
  | [] => some []
  | .node i below :: rest =>
    match i.marker with
    | .key name =>
      if startsBelow i.line below then do (name, ← levelOf? below) :: (← mapOf? rest) else none
    | _ => none

end

/-- Whether a character may stand in a document. -/
def isPrintable (c : Char) : Bool :=
  isSpace c || c = '\n' || c = '\r' || c = '\u0085' ||
    Text.inRanges [(0x20, 0x7e), (0xa0, 0xfefe), (0xff00, 0xfffd), (0x10000, 0x10ffff)] c.toNat

/-- Reads a text as a document. An empty document holds a blank node. -/
def read? (s : String) : Option Node := do
  if s.toList.all isPrintable then levelOf? (treesOf (← items? s)) else none

end DesignSystem.Yaml
