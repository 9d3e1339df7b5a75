import DesignSystem.Token.Tree

/-!
# Token trees as JSON

Groups are objects and leaves are scalars and lists. A reference is a string in braces or, below
the root, an object whose only field is `ref` or `$ref`; it is always written in the second form.
-/

set_option autoImplicit false

namespace DesignSystem.Token

/-- Why a JSON value is no leaf. -/
inductive LeafProblem
  | null
  | nestedList
  deriving DecidableEq

/-- A JSON value that is no leaf, and where it stands. -/
structure LeafError where
  path : Path
  problem : LeafProblem
  deriving DecidableEq

/-- The problem in words. -/
def LeafProblem.message : LeafProblem → String
  | null => "null is not a token value"
  | nestedList => "lists may only contain strings and numbers"

/-- The error in words. -/
def LeafError.message (e : LeafError) : String :=
  Text.join "." e.path ++ ": " ++ e.problem.message

/-- A character of a reference in braces. -/
def isReferenceChar (c : Char) : Bool :=
  Text.isPlainAlphanumeric c || c = '.' || c = '-' || c = '_'

/-- The target of a string that is a reference in braces. -/
def bracedTarget? (s : String) : Option String := do
  let inner ← Text.dropFront? "\x7b" s
  let target ← Text.dropBack? "\x7d" inner
  if !target.isEmpty && target.toList.all isReferenceChar then some target else none

/-- The text of an item of a list. -/
def itemText? : Json.Value → Option String
  | .string s => some s
  | .number n => some n.text
  | _ => none

/-- The target of an object that is a reference. -/
def referenceTarget? (fields : Entries Json.Value) : Option String :=
  match fields with
  | [("ref", .string target)] => some target
  | [("$ref", .string target)] => some target
  | _ => none

mutual

/-- The node that a JSON value at a path stands for. -/
def Node.ofJson (path : Path) : Json.Value → Except LeafError Node
  | .null => .error ⟨path, .null⟩
  | .bool b => .ok (.leaf (.flag b))
  | .number n => .ok (.leaf (.number n))
  | .string s =>
    match bracedTarget? s with
    | some target => .ok (.leaf (.reference target))
    | none => .ok (.leaf (.text s))
  | .array items =>
    match items.mapM itemText? with
    | some texts => .ok (.leaf (.list texts))
    | none => .error ⟨path, .nestedList⟩
  | .object fields =>
    match referenceTarget? fields with
    | some target => .ok (.leaf (.reference target))
    | none => (nodesOfJson path fields).map .group

/-- The nodes that the fields of an object at a path stand for. -/
def nodesOfJson (path : Path) : List (String × Json.Value) → Except LeafError (List (String × Node))
  | [] => .ok []
  | (key, v) :: rest => do
    let node ← Node.ofJson (path ++ [key]) v
    let nodes ← nodesOfJson path rest
    .ok ((key, node) :: nodes)

end

/-- The group that the fields of an object stand for. The object itself is never a reference. -/
def Group.ofFields (fields : Entries Json.Value) : Except LeafError Group := nodesOfJson [] fields

/-- The JSON form of a leaf. -/
def Leaf.toJson : Leaf → Json.Value
  | text s => .string s
  | number n => .number n
  | flag b => .bool b
  | list items => .array (items.map .string)
  | reference target => .object [("ref", .string target)]

mutual

/-- The JSON form of a node. -/
def Node.toJson : Node → Json.Value
  | .leaf v => v.toJson
  | .group entries => .object (nodesToJson entries)

/-- The fields that named nodes are written as. -/
def nodesToJson : List (String × Node) → List (String × Json.Value)
  | [] => []
  | (key, node) :: rest => (key, Node.toJson node) :: nodesToJson rest

end

/-- The JSON form of a group. -/
def Group.toJson (g : Group) : Json.Value := .object (nodesToJson g)

end DesignSystem.Token
