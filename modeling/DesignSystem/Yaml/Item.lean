import DesignSystem.Yaml.Node
import DesignSystem.Yaml.Token

/-!
# YAML items

An item is a mark of the block structure, a dash or a key, or a whole value: a scalar, or what
stands in brackets. Inside brackets lines and columns do not matter.
-/

set_option autoImplicit false

namespace DesignSystem.Yaml

/-- What an item is. -/
inductive Marker
  | dash
  | key (name : String)
  | value (node : Node)

/-- An item at its place. -/
structure Item where
  line : Nat
  column : Nat
  marker : Marker

/-- What an entry in braces has so far. -/
inductive Entry
  /-- A key may come. -/
  | start
  | key (name : String)
  /-- A value may come. -/
  | colon (name : String)
  /-- The entry is complete. -/
  | full

/-- Brackets that are still open, what is in them last first. -/
inductive Bracket
  /-- An item may come if `ready`. -/
  | list (items : List Node) (ready : Bool)
  | map (entries : List (String × Node)) (entry : Entry)

namespace Bracket

/-- A scalar or the value of inner brackets put into brackets. -/
def put? (node : Node) : Bracket → Option Bracket
  | .list items true => some (.list (node :: items) false)
  | .map entries (.colon name) => some (.map ((name, node) :: entries) .full)
  | .map entries .start =>
    match node with
    | .scalar name _ => some (.map entries (.key name))
    | _ => none
  | _ => none

/-- The entries with the one that is being read. -/
def complete (entries : List (String × Node)) : Entry → List (String × Node)
  | .key name => (name, .blank) :: entries
  | .colon name => (name, .blank) :: entries
  | _ => entries

/-- A colon inside brackets. -/
def colon? : Bracket → Option Bracket
  | .map entries (.key name) => some (.map entries (.colon name))
  | _ => none

/-- A comma inside brackets. -/
def comma? : Bracket → Option Bracket
  | .list items false => some (.list items true)
  | .map _ .start => none
  | .map entries entry => some (.map (complete entries entry) .start)
  | _ => none

/-- The node of brackets that are closed. -/
def close? (mark : Mark) : Bracket → Option Node
  | .list items _ => if mark = .closeList then some (.list items.reverse) else none
  | .map entries entry =>
    if mark = .closeMap then some (.map (complete entries entry).reverse) else none

end Bracket

/-- The items of tokens, while brackets are open that began at a place. -/
def itemsFrom (line column : Nat) : List Bracket → List Token → Option (List Item)
  | [], [] => some []
  | _ :: _, [] => none
  | [], t :: ts =>
    match t.mark with
    | .dash => do ⟨t.line, t.column, .dash⟩ :: (← itemsFrom 0 0 [] ts)
    | .scalar text plain =>
      match ts with
      | ⟨line', _, .colon⟩ :: ts =>
        if line' = t.line then do
          ⟨t.line, t.column, .key text⟩ :: (← itemsFrom 0 0 [] ts)
        else none
      | ts => do ⟨t.line, t.column, .value (.scalar text plain)⟩ :: (← itemsFrom 0 0 [] ts)
    | .openList => itemsFrom t.line t.column [.list [] true] ts
    | .openMap => itemsFrom t.line t.column [.map [] .start] ts
    | _ => none
  | b :: outer, t :: ts =>
    match t.mark with
    | .scalar text plain => do itemsFrom line column ((← b.put? (.scalar text plain)) :: outer) ts
    | .colon => do itemsFrom line column ((← b.colon?) :: outer) ts
    | .comma => do itemsFrom line column ((← b.comma?) :: outer) ts
    | .openList => itemsFrom line column (.list [] true :: b :: outer) ts
    | .openMap => itemsFrom line column (.map [] .start :: b :: outer) ts
    | mark => do
      let node ← b.close? mark
      match outer with
      | [] => ⟨line, column, .value node⟩ :: (← itemsFrom 0 0 [] ts)
      | b :: outer => itemsFrom line column ((← b.put? node) :: outer) ts

/-- Drops the marks around a document; a second document is not read. -/
def withoutDocumentMarks (ts : List Token) : List Token :=
  let ts := match ts with
    | ⟨_, _, .documentStart⟩ :: rest => rest
    | ts => ts
  (ts.reverse.dropWhile fun t => t.mark = .documentEnd).reverse

/-- The items of a text. -/
def items? (s : String) : Option (List Item) :=
  itemsFrom 0 0 [] (withoutDocumentMarks (tokens s))

end DesignSystem.Yaml
