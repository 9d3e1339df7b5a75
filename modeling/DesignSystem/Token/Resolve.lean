import DesignSystem.Token.Tree

/-!
# Resolved tokens

Design tokens stand in three layers. A reference is followed from leaf to leaf until it reaches a
raw value; the result is one flat list of all leaves with their raw values and distinct names.
-/

set_option autoImplicit false

namespace DesignSystem.Token

/-- The layers, each of which may refer to the ones before it. -/
inductive Layer
  | primitive | semantic | component
  deriving DecidableEq

namespace Layer

/-- The layers in order. -/
def all : List Layer := [primitive, semantic, component]

/-- The name of a layer. -/
def name : Layer → String
  | primitive => "primitive"
  | semantic => "semantic"
  | component => "component"

/-- The layer of a name. -/
def ofName? (s : String) : Option Layer := all.find? (·.name = s)

/-- The layers in which a relative reference is looked for, in order. -/
def searchOrder : Layer → List Layer
  | primitive => []
  | semantic => [primitive, semantic]
  | component => [semantic, primitive]

end Layer

/-- The token trees of a design system, one for each layer. -/
structure Layers where
  primitive : Group := []
  semantic : Group := []
  component : Group := []

/-- The tree of a layer. -/
def Layers.tree (t : Layers) : Layer → Group
  | .primitive => t.primitive
  | .semantic => t.semantic
  | .component => t.component

/-- The layers with another tree for one of them. -/
def Layers.setTree (t : Layers) (g : Group) : Layer → Layers
  | .primitive => { t with primitive := g }
  | .semantic => { t with semantic := g }
  | .component => { t with component := g }

/-- Where a leaf stands: its layer, and its path there. -/
structure Place where
  layer : Layer
  path : Path
  deriving DecidableEq

/-- The layer and the keys of a place, joined by dots. -/
def Place.qualified (p : Place) : String := p.layer.name ++ "." ++ Text.join "." p.path

/-- The leaves of all layers with their places, in flattening order. -/
def Layers.leaves (t : Layers) : List (Place × Leaf) :=
  Layer.all.flatMap fun layer => (t.tree layer).leaves.map fun l => (⟨layer, l.1⟩, l.2)

/-- The leaf at a place. -/
def Layers.lookup (t : Layers) (p : Place) : Option Leaf := (t.tree p.layer).lookup p.path

/-! ## Following references -/

/-- The groups that hold a leaf, as paths: from the nearest to the root. -/
def enclosing (path : Path) : List Path :=
  let parents := path.dropLast
  (List.range (parents.length + 1)).reverse.map parents.take

/-- The places where a relative reference is looked for, in order. A leaf never refers to itself
this way. -/
def candidatePlaces (source : Place) (segments : Path) : List Place :=
  source.layer.searchOrder.flatMap fun layer =>
    ((enclosing source.path).map fun group => (⟨layer, group ++ segments⟩ : Place)).filter
      (· ≠ source)

/-- The leaf that a reference at `source` points at. A target that starts with the name of a layer
is absolute. -/
def Layers.locate (t : Layers) (source : Place) (target : String) : Option (Place × Leaf) :=
  let segments := Text.splitAtChar '.' target
  let found (p : Place) := (t.lookup p).map fun v => (p, v)
  match segments.head?.bind Layer.ofName? with
  | some layer => found ⟨layer, segments.tail⟩
  | none => (candidatePlaces source segments).findSome? found

/-- Why token trees cannot be resolved. -/
inductive ResolveError
  | referenceInPrimitive (path : String)
  | dangling (path reference : String)
  | circular (cycle : List String)
  | duplicateName (name first second : String)
  deriving DecidableEq

/-- The error in words. -/
def ResolveError.message : ResolveError → String
  | referenceInPrimitive path =>
    "Primitive token '" ++ path ++ "' must hold a raw value, found a reference"
  | dangling path reference =>
    "Token '" ++ path ++ "' references '" ++ reference ++
      "', which does not resolve to a primitive value"
  | circular cycle => "Circular token reference: " ++ Text.join " -> " cycle
  | duplicateName name first second =>
    "Token name '" ++ name ++ "' is produced by both '" ++ first ++ "' and '" ++ second ++ "'"

/-- The names other than a given one. -/
def without (name : String) (names : List String) : List String := names.filter (· ≠ name)

theorem length_without_lt {name : String} {names : List String} (h : name ∈ names) :
    (without name names).length < names.length :=
  List.length_filter_lt_length_iff_exists.2 ⟨name, h, by simp⟩

/-- The raw value at the end of the chain that starts with the leaf `v` at `place`. The chain has
come through the places named in `chain`; `fresh` names those it has not come to. -/
def Layers.follow (t : Layers) (fresh chain : List String) (place : Place) (v : Leaf) :
    Except ResolveError Leaf :=
  let name := place.qualified
  if _ : name ∈ fresh then
    match v with
    | .reference target =>
      if place.layer = .primitive then .error (.referenceInPrimitive name)
      else
        match t.locate place target with
        | none => .error (.dangling name target)
        | some (next, v) =>
          t.follow (without name fresh) (chain ++ [name]) next v
    | raw => .ok raw
  else .error (.circular (chain ++ [name]))
  termination_by fresh.length
  decreasing_by
    exact length_without_lt (by assumption)

/-- The raw value of a leaf, and the flat name of the leaf that it refers to, if it does. -/
def Layers.resolveLeaf (t : Layers) (place : Place) :
    Leaf → Except ResolveError (Leaf × Option String)
  | .reference target =>
    let name := place.qualified
    if place.layer = .primitive then .error (.referenceInPrimitive name)
    else
      match t.locate place target with
      | none => .error (.dangling name target)
      | some (next, v) => do
        let fresh := without name (t.leaves.map (·.1.qualified))
        let raw ← t.follow fresh [name] next v
        .ok (raw, some (flatName next.path))
  | raw => .ok (raw, none)

end Token

/-! ## The flat list -/

/-- A resolved token. -/
structure FlatToken where
  place : Token.Place
  /-- The hyphen-joined name, which no other token has. -/
  name : String
  /-- The raw value. -/
  value : Token.Leaf
  /-- The name of the token that this one directly refers to. -/
  reference : Option String
  deriving DecidableEq

/-- The resolved tokens of a design system in flattening order. -/
abbrev FlatTokens := List FlatToken

namespace FlatTokens

/-- The token of a name. -/
def get? (name : String) (ts : FlatTokens) : Option FlatToken := ts.find? (·.name = name)

/-- The tokens of a layer. -/
def ofLayer (layer : Token.Layer) (ts : FlatTokens) : List FlatToken :=
  ts.filter (·.place.layer = layer)

/-- The names with the values as text. -/
def pairs (ts : FlatTokens) : List (String × String) := ts.map fun t => (t.name, t.value.render)

/-- The names of the outermost groups in the order of their first tokens. -/
def groups (ts : FlatTokens) : List String :=
  ts.foldl (fun seen t =>
    match t.place.path.head? with
    | some first => if first ∈ seen then seen else seen ++ [first]
    | none => seen) []

end FlatTokens

namespace Token

/-- Resolves a leaf and adds it to the tokens before it. -/
def Layers.resolveNext (t : Layers) (before : FlatTokens) (leaf : Place × Leaf) :
    Except ResolveError FlatTokens := do
  let (place, v) := leaf
  let (value, reference) ← t.resolveLeaf place v
  let name := flatName place.path
  match FlatTokens.get? name before with
  | some first => .error (.duplicateName name first.place.qualified place.qualified)
  | none => .ok (before ++ [⟨place, name, value, reference⟩])

/-- Resolves all leaves. The first leaf that cannot be resolved, or whose name is taken, decides the
error. -/
def Layers.resolve (t : Layers) : Except ResolveError FlatTokens :=
  t.leaves.foldlM t.resolveNext []

end Token

end DesignSystem
