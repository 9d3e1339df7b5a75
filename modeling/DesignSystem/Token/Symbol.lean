import DesignSystem.Entries
import DesignSystem.Text.Words
import DesignSystem.Token.Resolve

/-!
# Symbols of tokens

Generated sources declare every token under a symbol that is made from the token's name. The symbols
have to be distinct, so a clash is found before anything is generated.
-/

set_option autoImplicit false

namespace DesignSystem.Token

/-- The parts of a segment that an identifier can hold. -/
def identifierParts (segment : String) : List String :=
  (Text.splitWhere (!Text.isPlainAlphanumeric ·) segment).filter (!·.isEmpty)

/-- Adds a segment of a name to an identifier. The first segment starts in lowercase and each later
one in uppercase; underscores join the parts of a segment. -/
def extendIdentifier (ident segment : String) : String :=
  let recase := if ident.isEmpty then Text.camel else Text.pascal
  ident ++ Text.join "_" ((identifierParts segment).map recase)

/-- The name of a token as an identifier: hyphens and underscores separate its segments. A digit
does not come first, and a name without a letter or digit becomes a word of its own. -/
def identifier (name : String) : String :=
  let segments := Text.splitWhere (fun c => c == '-' || c == '_') name
  let ident := segments.foldl extendIdentifier ""
  match ident.toList with
  | [] => "token"
  | c :: _ => if c.isDigit then "t" ++ ident else ident

/-- The first token whose symbol an earlier token has, `seen` being the earlier symbols with their
tokens. -/
def symbolClash? (symbol : String → String) (seen : Entries String) :
    FlatTokens → Option ResolveError
  | [] => none
  | t :: ts =>
    match seen.get? (symbol t.name) with
    | some first => some (.duplicateName (symbol t.name) first t.name)
    | none => symbolClash? symbol (seen ++ [(symbol t.name, t.name)]) ts

/-- Whether all tokens have symbols of their own, and if not the first one that has not. -/
def checkSymbols (symbol : String → String) (ts : FlatTokens) : Except ResolveError Unit :=
  match symbolClash? symbol [] ts with
  | some e => .error e
  | none => .ok ()

end DesignSystem.Token
