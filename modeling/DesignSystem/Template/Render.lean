import DesignSystem.Template.Helper
import DesignSystem.Template.Reader

/-!
# Rendering templates

A template is rendered in a scope: a stack of levels, each with a value whose fields can be named.
-/

set_option autoImplicit false

namespace DesignSystem.Template

open Json (Value)

/-! ## Scopes -/

/-- A level of a scope. -/
structure Level where
  value : Value
  /-- What a loop tells about its current turn. -/
  markers : Entries Value := []
  /-- The names that a block binds. -/
  bound : Entries Value := []

/-- The levels from the innermost to the outermost; the outermost one is apart. -/
structure Scope where
  inner : List Level
  outermost : Level

namespace Scope

/-- The scope of a template that is rendered with a value. -/
def ofValue (v : Value) : Scope := ⟨[], ⟨v, [], []⟩⟩

/-- The scope inside a block. -/
def push (l : Level) (s : Scope) : Scope := { s with inner := l :: s.inner }

/-- The levels, the innermost first. -/
def levels (s : Scope) : List Level := s.inner ++ [s.outermost]

/-- The innermost level. -/
def innermost (s : Scope) : Level := s.inner.head?.getD s.outermost

/-- The value that a block has bound to a name, the innermost such block first. -/
def bound? (name : String) (s : Scope) : Option Value := s.levels.findSome? (·.bound.get? name)

/-- The position that a name stands for: digits, which a plus sign may precede. -/
def position? (name : String) : Option Nat :=
  let digits := match name.toList with
    | '+' :: cs => cs
    | cs => cs
  if digits.isEmpty || !digits.all Char.isDigit then none
  else if digitsValue 0 digits < Nat.pow 2 64 then some (digitsValue 0 digits)
  else none

/-- What is found below a value by names, if anything. -/
def descend : List String → Value → Except Fault (Option Value)
  | [], v => .ok (some v)
  | name :: names, .object fields =>
    match Entries.get? name fields with
    | some v => descend names v
    | none => .ok none
  | name :: names, .array items =>
    match position? name with
    | none => .error (.badPosition name)
    | some i =>
      match items[i]? with
      | some v => descend names v
      | none => .ok none
  | _ :: _, _ => .ok none

/-- The value of a path that starts at a value in scope. A name that a block has bound comes
first. Without as many levels the path starts at the innermost one. -/
def fromHere (s : Scope) (ups : Nat) (names : List String) : Except Fault (Option Value) :=
  let level := s.levels[ups]?.getD s.innermost
  match names with
  | [] => .ok (some level.value)
  | name :: rest =>
    match s.bound? name with
    | some v => descend rest v
    | none => descend names level.value

/-- The value of a path, if there is one. -/
def find (s : Scope) (p : Path) : Except Fault (Option Value) :=
  match p.start, p.names with
  | .root, names => descend names s.outermost.value
  | .marker, name :: _ => .ok (s.levels[p.ups]?.bind (·.markers.get? name))
  | _, names => s.fromHere p.ups names

end Scope

/-! ## Operands -/

mutual

/-- The value of an operand; null if there is none. -/
def Operand.evaluate (s : Scope) : Operand → Except Fault Value
  | .literal v => .ok v
  | .path p => (s.find p).map (·.getD .null)
  | .call name arguments options => do
    let arguments ← evaluateAll s arguments
    let _ ← evaluateOptions s options
    match Helper.ofName? name with
    | some h => h.value name arguments
    | none => .error (.unknownHelper name)

/-- The values of operands. -/
def evaluateAll (s : Scope) : List Operand → Except Fault (List Value)
  | [] => .ok []
  | o :: os => do
    let v ← o.evaluate s
    let vs ← evaluateAll s os
    .ok (v :: vs)

/-- The values of options. -/
def evaluateOptions (s : Scope) : List (String × Operand) → Except Fault (Entries Value)
  | [] => .ok []
  | (name, o) :: rest => do
    let v ← o.evaluate s
    let vs ← evaluateOptions s rest
    .ok ((name, v) :: vs)

end

/-! ## Levels of loops -/

/-- The levels for the turns of a loop over named values; `marked` are further markers of a turn. -/
def turns (bound : List String) (items : List (Value × Value))
    (marked : Value → Entries Value) : List Level :=
  items.zipIdx.map fun ((key, v), i) => {
    value := v
    markers := [("first", .bool (i = 0)), ("last", .bool (i + 1 = items.length)),
      ("index", .ofNat i)] ++ marked key
    bound := bound.zip [v, key] }

/-- The levels for the turns of a loop over a list or an object; none if there is nothing to go
through. -/
def turns? (bound : List String) : Value → Option (List Level)
  | .array (v :: vs) =>
    let items := (v :: vs).zipIdx.map fun (item : Value × Nat) => (Value.ofNat item.2, item.1)
    some (turns bound items fun _ => [])
  | .object (f :: fs) =>
    let items := (f :: fs).map fun field => (Value.string field.1, field.2)
    some (turns bound items fun key => [("key", key)])
  | _ => none

/-- What has been decided about a block: the scopes in which its body is rendered, or that what
stands for it otherwise is rendered, or the text that its helper shows. -/
inductive Decision
  | body (scopes : List Scope)
  | otherwise
  | shown (text : String)

/-- Whether a zero counts as true, as an option says. -/
def zeroCounts (options : Entries Value) : Bool :=
  match options.get? "includeZero" with
  | some (.bool b) => b
  | _ => false

/-- The single name that a block binds to a value. -/
def boundTo (v : Value) : List String → Entries Value
  | [name] => [(name, v)]
  | _ => []

/-- What a helper decides about a block. -/
def Helper.decide (h : Helper) (name : String) (s : Scope) (arguments : List Value)
    (options : Entries Value) (bound : List String) : Except Fault Decision :=
  match h, arguments with
  | .branch expected, v :: _ =>
    .ok (if isTrue (zeroCounts options) v = expected then .body [s] else .otherwise)
  | .each, v :: _ =>
    .ok (match turns? bound v with
      | some levels => .body (levels.map s.push)
      | none => .otherwise)
  | .within, v :: _ =>
    .ok (if isTrue false v then .body [s.push ⟨v, [], boundTo v bound⟩] else .otherwise)
  | .plain, _ => .ok (.body [s])
  | h, arguments => (h.value name arguments).map fun v => .shown (display v)

/-- What the call of a block decides. -/
def Call.decide (s : Scope) (c : Call) : Except Fault Decision := do
  let arguments ← evaluateAll s c.arguments
  let options ← evaluateOptions s c.options
  match Helper.ofName? c.helper with
  | some h => h.decide c.helper s arguments options c.bound
  | none => .error (.unknownHelper c.helper)

/-! ## Rendering -/

/-- The text of a word alone: that of the helper of its name, or else that of a value in scope. -/
def renderWord (s : Scope) (name : String) : Except Fault String :=
  match Helper.ofName? name with
  | some h => (h.value name []).map display
  | none =>
    (s.find ⟨.here, 0, if name = "this" then [] else [name]⟩).map fun v => (v.map display).getD ""

/-- The text of a value alone. A call whose text names a helper stands for that helper. -/
def renderValue (s : Scope) (o : Operand) : Except Fault String := do
  let text := display (← o.evaluate s)
  match o, Helper.ofName? text with
  | .call _ _ _, some h => (h.value text []).map display
  | _, _ => .ok text

mutual

/-- The text of a part. -/
def Element.render (s : Scope) : Element → Except Fault String
  | .text t => .ok t
  | .comment => .ok ""
  | .word name => renderWord s name
  | .value o => renderValue s o
  | .call c => ((Operand.call c.helper c.arguments c.options).evaluate s).map display
  | .block c body otherwise => do
    match ← c.decide s with
    | .body scopes => (scopes.mapM fun inner => renderAll inner body).map (Text.join "")
    | .otherwise => renderAll s otherwise
    | .shown text => .ok text
  | .part name => .error (.unknownPart name)

/-- The text of parts. -/
def renderAll (s : Scope) : List Element → Except Fault String
  | [] => .ok ""
  | e :: es => do
    let first ← e.render s
    let rest ← renderAll s es
    .ok (first ++ rest)

end

end DesignSystem.Template

namespace DesignSystem.Template

/-- The text of a template with a value in scope. -/
def render (t : Template) (v : Json.Value) : Except Fault String := renderAll (.ofValue v) t

/-- Reads a text as a template. -/
def ofText (s : String) : Except Fault Template :=
  match ofText? s with
  | some t => .ok t
  | none => .error .malformed

/-- Reads a text as a template and renders it with a value in scope. -/
def renderText (s : String) (v : Json.Value) : Except Fault String := do
  render (← ofText s) v

end DesignSystem.Template
