import DesignSystem.Text.Quoted
import DesignSystem.Types.Nominal

/-!
# Swift types

Enumerations and alternatives are declared as `enum`, objects as `struct`.
-/

set_option autoImplicit false

namespace DesignSystem.Swift

/-- The reserved words. -/
def reserved : List String := [
  "Any", "Self", "as", "associatedtype", "await", "break", "case", "catch", "class",
  "continue", "default", "defer", "deinit", "do", "else", "enum", "extension", "fallthrough",
  "false", "fileprivate", "for", "func", "guard", "if", "import", "in", "init", "inout",
  "internal", "is", "let", "nil", "open", "operator", "private", "precedencegroup",
  "protocol", "public", "repeat", "rethrows", "return", "self", "static", "struct",
  "subscript", "super", "switch", "throw", "throws", "true", "try", "typealias", "var",
  "where", "while"]

/-- A reserved word in backticks is an identifier. -/
def escapeReserved (word : String) : String := "`" ++ word ++ "`"

/-- A name as an identifier. -/
def ident (name : String) : String := if name ∈ reserved then escapeReserved name else name

/-- A case of an enumeration. Its raw value is left out if it equals the name. -/
def enumerationCase (v : Json.Value) : String :=
  let name := caseIdent v
  match v with
  | .number n => "    case " ++ ident name ++ " = " ++ n.text
  | v =>
    if name = v.label then "    case " ++ ident name
    else "    case " ++ ident name ++ " = " ++ Text.quotedDouble v.label

/-- The declaration of an enumeration. -/
def enumeration (hint : String) (values : List Json.Value) : String :=
  let raw := if values.all isNumber then "Double" else "String"
  Text.unlines (("enum " ++ hint ++ ": " ++ raw ++ ", CaseIterable \x7b") ::
    values.map enumerationCase ++ ["\x7d"])

/-- The words of letters and digits in a type. -/
def typeWords (type : String) : String :=
  let words := Text.splitWhere (!Text.isPlainAlphanumeric ·) type
  Text.join " " (words.filter (!·.isEmpty))

/-- The names of the cases for alternatives. -/
def alternativeNames (members : List String) : List String :=
  variantNames (fun n => "option" ++ toString n) [] (members.map fun type =>
    let name := ident (Text.camel (typeWords type))
    if name.isEmpty then none else some name)

/-- The declaration of alternatives. -/
def alternatives (hint : String) (members : List String) : String :=
  let cases := (alternativeNames members).zipWith
    (fun name type => "    case " ++ name ++ "(" ++ type ++ ")") members
  Text.unlines (("enum " ++ hint ++ " \x7b") :: cases ++ ["\x7d"])

/-- The declaration of an object. -/
def object (hint : String) (fields : List (String × String)) : ObjectType where
  text := hint
  source := some (Text.unlines (("struct " ++ hint ++ " \x7b") ::
    fields.map (fun f => "    let " ++ ident (Text.camel f.1) ++ ": " ++ f.2) ++ ["\x7d"]))

/-- The type of a prop that may be left out. -/
def optional (type : String) : String :=
  if Text.contains "->" type then "(" ++ type ++ ")?" else type ++ "?"

/-- The language. -/
def language : NominalLanguage where
  name := "swift"
  reserved := reserved
  escapeReserved := escapeReserved
  primitive
    | .string => "String"
    | .number => "Double"
    | .boolean => "Bool"
  complex
    | .function => "() -> Void"
    | .node | .element => "AnyView"
    | .ref => "FocusState<Bool>.Binding"
    | .date => "Date"
    | .file => "URL"
  custom
    | .color => "Color"
    | .url => "URL"
    | _ => "String"
  noResult := "Void"
  callback params returns := "(" ++ Text.join ", " params ++ ") -> " ++ returns
  list item := "[" ++ item ++ "]"
  openObject := "[String: Any]"
  enumeration := enumeration
  caseLiteral _ v := "." ++ ident (caseIdent v)
  alternatives := alternatives
  object := object
  quoted := Text.quotedDouble
  number n := n.text
  color s := some ("Color(hex: " ++ Text.quotedDouble s ++ ")")
  url s := "URL(string: " ++ Text.quotedDouble s ++ ")!"
  listLiteral items := "[" ++ Text.join ", " items ++ "]"
  optional := optional

end DesignSystem.Swift
