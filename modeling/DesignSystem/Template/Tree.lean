import DesignSystem.Json.Basic

/-!
# Templates

A template is text with tags in double braces: values, calls of helpers, and blocks that helpers
repeat, choose or leave out.
-/

set_option autoImplicit false

namespace DesignSystem.Template

/-- Where a path starts. -/
inductive PathStart
  /-- At the value in scope. -/
  | here
  /-- At the outermost value. -/
  | root
  /-- At the markers of a loop, such as the index. -/
  | marker
  deriving DecidableEq

/-- A path to a value. -/
structure Path where
  start : PathStart
  /-- How many scopes further out it starts. -/
  ups : Nat
  names : List String
  deriving DecidableEq

/-- An argument. -/
inductive Operand
  | literal (v : Json.Value)
  | path (p : Path)
  | call (helper : String) (arguments : List Operand) (options : List (String × Operand))

/-- A call of a helper. -/
structure Call where
  helper : String
  arguments : List Operand
  options : List (String × Operand) := []
  /-- The names that a block binds. -/
  bound : List String := []

/-- A part of a template. -/
inductive Element
  | text (s : String)
  | comment
  /-- A word alone: a helper if there is one of its name, and else a value in scope. -/
  | word (name : String)
  | value (o : Operand)
  | call (c : Call)
  /-- A block with what stands for it otherwise. -/
  | block (c : Call) (body otherwise : List Element)
  | part (name : String)

end DesignSystem.Template

namespace DesignSystem

/-- A template. -/
abbrev Template := List Template.Element

end DesignSystem
