import DesignSystem.Text.Quoted
import DesignSystem.Types.Nominal

/-!
# Dart types

Enumerations are declared as `enum` with a field for the raw value, alternatives as a
`sealed class`; objects are record types and need no declaration.
-/

set_option autoImplicit false

namespace DesignSystem.Dart

/-- The reserved words. -/
def reserved : List String := [
  "assert", "break", "case", "catch", "class", "const", "continue", "default", "do", "else",
  "enum", "extends", "false", "final", "finally", "for", "if", "in", "is", "new", "null",
  "rethrow", "return", "super", "switch", "this", "throw", "true", "try", "var", "void",
  "while", "with"]

/-- A reserved word with an underscore is an identifier. -/
def escapeReserved (word : String) : String := word ++ "_"

/-- A name as an identifier. -/
def ident (name : String) : String := if name ∈ reserved then escapeReserved name else name

/-- A case of an enumeration with its raw value. -/
def enumerationEntry (v : Json.Value) : String :=
  match v with
  | .number n => "  " ++ ident (caseIdent v) ++ "(" ++ n.text ++ ")"
  | v => "  " ++ ident (caseIdent v) ++ "(" ++ Text.quotedSingle v.label ++ ")"

/-- The declaration of an enumeration. -/
def enumeration (hint : String) (values : List Json.Value) : String :=
  let raw := if values.all isNumber then "num" else "String"
  Text.unlines ["enum " ++ hint ++ " \x7b", Text.join ",\n" (values.map enumerationEntry) ++ ";",
    "", "  const " ++ hint ++ "(this.value);", "  final " ++ raw ++ " value;", "\x7d"]

/-- The names of the classes for alternatives. -/
def alternativeNames (hint : String) (members : List String) : List String :=
  variantNames (fun n => hint ++ "Option" ++ toString n) [] (members.map fun type =>
    let letters := typeLetters type
    if letters.isEmpty then none else some (hint ++ Text.pascal letters))

/-- The class of an alternative. -/
def alternativeClass (hint name type : String) : String :=
  Text.unlines ["final class " ++ name ++ " extends " ++ hint ++ " \x7b",
    "  const " ++ name ++ "(this.value);", "  final " ++ type ++ " value;", "\x7d"]

/-- The declaration of alternatives. -/
def alternatives (hint : String) (members : List String) : String :=
  let base := Text.unlines ["sealed class " ++ hint ++ " \x7b", "  const " ++ hint ++ "();", "\x7d"]
  Text.join "\n\n" (base :: (alternativeNames hint members).zipWith (alternativeClass hint) members)

/-- The record type of an object. -/
def object (_hint : String) (fields : List (String × String)) : ObjectType where
  text :=
    let parts := fields.map fun f => f.2 ++ " " ++ ident (Text.camel f.1)
    if parts.isEmpty then "()" else "(\x7b" ++ Text.join ", " parts ++ "\x7d)"
  source := none

/-- The language. -/
def language : NominalLanguage where
  name := "dart"
  reserved := reserved
  escapeReserved := escapeReserved
  primitive
    | .string => "String"
    | .number => "double"
    | .boolean => "bool"
  complex
    | .function => "VoidCallback"
    | .node | .element => "Widget"
    | .ref => "FocusNode"
    | .date => "DateTime"
    | .file => "File"
  custom
    | .color => "Color"
    | .url => "Uri"
    | _ => "String"
  noResult := "void"
  callback params returns := returns ++ " Function(" ++ Text.join ", " params ++ ")"
  list item := "List<" ++ item ++ ">"
  openObject := "Map<String, Object?>"
  enumeration := enumeration
  caseLiteral hint v := hint ++ "." ++ ident (caseIdent v)
  alternatives := alternatives
  object := object
  quoted := Text.quotedSingle
  number n := n.text
  color := hexColorLiteral?
  url s := "Uri.parse(" ++ Text.quotedSingle s ++ ")"
  listLiteral items := "[" ++ Text.join ", " items ++ "]"
  optional type := type ++ "?"

end DesignSystem.Dart
