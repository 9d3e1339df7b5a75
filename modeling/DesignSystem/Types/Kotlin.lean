import DesignSystem.Text.Quoted
import DesignSystem.Types.Nominal

/-!
# Kotlin types

Enumerations are declared as `enum class`, alternatives as `sealed interface`, and objects as
`data class`.
-/

set_option autoImplicit false

namespace DesignSystem.Kotlin

/-- The reserved words. -/
def reserved : List String := [
  "as", "break", "class", "continue", "do", "else", "false", "for", "fun", "if", "in",
  "interface", "is", "null", "object", "package", "return", "super", "this", "throw", "true",
  "try", "typealias", "typeof", "val", "var", "when", "while"]

/-- A reserved word in backticks is an identifier. -/
def escapeReserved (word : String) : String := "`" ++ word ++ "`"

/-- A name as an identifier. -/
def ident (name : String) : String := if name ∈ reserved then escapeReserved name else name

/-- The name of the constant for an enumerated value. -/
def constant (v : Json.Value) : String := Text.upperSnake (caseIdent v)

/-- A number as a literal of a floating-point type. -/
def number : Json.Number → String
  | .integer n => if n < 0x8000000000000000 then toString n ++ ".0" else toString n
  | n => n.text

/-- A constant of an enumeration with its raw value. -/
def enumerationEntry (v : Json.Value) : String :=
  match v with
  | .number n => "    " ++ constant v ++ "(" ++ number n ++ ")"
  | v => "    " ++ constant v ++ "(" ++ Text.quotedTemplate v.label ++ ")"

/-- The declaration of an enumeration. -/
def enumeration (hint : String) (values : List Json.Value) : String :=
  let raw := if values.all isNumber then "Double" else "String"
  Text.unlines ["enum class " ++ hint ++ "(val value: " ++ raw ++ ") \x7b",
    Text.join ",\n" (values.map enumerationEntry) ++ ";", "\x7d"]

/-- The names of the classes for alternatives. -/
def alternativeNames (members : List String) : List String :=
  variantNames (fun n => "Option" ++ toString n) [] (members.map fun type =>
    let letters := typeLetters type
    if letters.isEmpty then none else some (Text.pascal letters ++ "Value"))

/-- The declaration of alternatives. -/
def alternatives (hint : String) (members : List String) : String :=
  let classes := (alternativeNames members).zipWith
    (fun name type => "    data class " ++ name ++ "(val value: " ++ type ++ ") : " ++ hint) members
  Text.unlines (("sealed interface " ++ hint ++ " \x7b") :: classes ++ ["\x7d"])

/-- The declaration of an object. -/
def object (hint : String) (fields : List (String × String)) : ObjectType where
  text := hint
  source :=
    let parts := fields.map fun f => "    val " ++ ident (Text.camel f.1) ++ ": " ++ f.2
    some (if parts.isEmpty then "data object " ++ hint
      else "data class " ++ hint ++ "(\n" ++ Text.join ",\n" parts ++ ",\n)")

/-- The type of a prop that may be left out. -/
def optional (type : String) : String :=
  if Text.contains "->" type then "(" ++ type ++ ")?" else type ++ "?"

/-- The language. -/
def language : NominalLanguage where
  name := "kotlin"
  reserved := reserved
  escapeReserved := escapeReserved
  primitive
    | .string => "String"
    | .number => "Double"
    | .boolean => "Boolean"
  complex
    | .function => "() -> Unit"
    | .node | .element => "@Composable () -> Unit"
    | .ref => "FocusRequester"
    | .date => "java.time.Instant"
    | .file => "android.net.Uri"
  custom
    | .color => "Color"
    | _ => "String"
  noResult := "Unit"
  callback params returns := "(" ++ Text.join ", " params ++ ") -> " ++ returns
  list item := "List<" ++ item ++ ">"
  openObject := "Map<String, Any?>"
  enumeration := enumeration
  caseLiteral hint v := hint ++ "." ++ constant v
  alternatives := alternatives
  object := object
  quoted := Text.quotedTemplate
  number := number
  color := hexColorLiteral?
  url := Text.quotedTemplate
  listLiteral items := "listOf(" ++ Text.join ", " items ++ ")"
  optional := optional

end DesignSystem.Kotlin
