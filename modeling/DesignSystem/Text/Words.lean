import DesignSystem.Text.Case
import DesignSystem.Text.Cluster

/-!
# Words and naming styles

A name is cut into words at hyphens, underscores and spaces, which are dropped, and where letter
case or a digit shows that a new word starts. A naming style says how the words are cased and what
joins them.
-/

set_option autoImplicit false

namespace DesignSystem.Text

/-- Whether a cluster has case and is in uppercase. -/
def Cluster.isUpper (g : Cluster) : Bool :=
  let up := g.flatMap upperChar
  up ≠ lowerList [] g && g = up

/-- Whether a cluster has case and is in lowercase. -/
def Cluster.isLower (g : Cluster) : Bool :=
  let low := lowerList [] g
  g.flatMap upperChar ≠ low && g = low

/-- Whether a cluster is a digit from `0` to `9`. -/
def Cluster.isDigit (g : Cluster) : Bool := g.all Char.isDigit

/-- Whether a cluster only separates words. -/
def Cluster.isSeparator (g : Cluster) : Bool := g = ['-'] || g = ['_'] || g = [' ']

/-- Whether a word ends between two neighbours. -/
def bordersPair (a b : Cluster) : Bool :=
  (a.isLower && b.isUpper) || (a.isUpper && b.isDigit) || (a.isDigit && b.isUpper) ||
  (a.isDigit && b.isLower) || (a.isLower && b.isDigit)

/-- Whether `b` starts a word although `a` and `b` are both capitals: a lowercase letter follows. -/
def startsCapitalised (a b : Cluster) (after : Option Cluster) : Bool :=
  a.isUpper && b.isUpper && (after.map Cluster.isLower).getD false

/-- The words of the clusters that follow `previous`; `word` is the word read so far, last cluster
first. Words may be empty. -/
def wordsFrom (previous : Cluster) (word : List Cluster) : List Cluster → List (List Cluster)
  | [] => [word.reverse]
  | g :: rest =>
    if g.isSeparator then word.reverse :: wordsFrom g [] rest
    else if bordersPair previous g || startsCapitalised previous g rest.head? then
      word.reverse :: wordsFrom g [g] rest
    else wordsFrom g (g :: word) rest

/-- The words of a name, in order, none of them empty. -/
def wordsOf (s : String) : List (List Cluster) :=
  match clusters s.toList with
  | [] => []
  | g :: rest =>
    let found := if g.isSeparator then wordsFrom g [] rest else wordsFrom g [g] rest
    found.filter (!·.isEmpty)

/-- How the letters of a word are cased. -/
inductive WordCase
  | lower | upper | capital
  deriving DecidableEq

/-- A word in a given case. In a capitalised word the first cluster is in uppercase. -/
def WordCase.apply (c : WordCase) (word : List Cluster) : List Char :=
  match c, word with
  | .lower, _ => lowerList [] word.flatten
  | .upper, _ => word.flatten.flatMap upperChar
  | .capital, [] => []
  | .capital, first :: rest => first.flatMap upperChar ++ lowerList [] rest.flatten

/-- A way to write a name of several words. -/
structure NamingStyle where
  first : WordCase
  others : WordCase
  separator : String

namespace NamingStyle

/-- `PascalCase` -/
def pascal : NamingStyle := ⟨.capital, .capital, ""⟩

/-- `camelCase` -/
def camel : NamingStyle := ⟨.lower, .capital, ""⟩

/-- `snake_case` -/
def snake : NamingStyle := ⟨.lower, .lower, "_"⟩

/-- `kebab-case` -/
def kebab : NamingStyle := ⟨.lower, .lower, "-"⟩

/-- `UPPER_SNAKE_CASE` -/
def upperSnake : NamingStyle := ⟨.upper, .upper, "_"⟩

/-- `Title Case` -/
def title : NamingStyle := ⟨.capital, .capital, " "⟩

/-- `lower case` -/
def plain : NamingStyle := ⟨.lower, .lower, " "⟩

/-- A name in this style. -/
def apply (style : NamingStyle) (s : String) : String :=
  match wordsOf s with
  | [] => ""
  | word :: rest =>
    join style.separator
      (.ofList (style.first.apply word) :: rest.map fun w => .ofList (style.others.apply w))

end NamingStyle

/-- `PascalCase` -/
def pascal (s : String) : String := NamingStyle.pascal.apply s

/-- `camelCase` -/
def camel (s : String) : String := NamingStyle.camel.apply s

/-- `snake_case` -/
def snake (s : String) : String := NamingStyle.snake.apply s

/-- `kebab-case` -/
def kebab (s : String) : String := NamingStyle.kebab.apply s

/-- `UPPER_SNAKE_CASE` -/
def upperSnake (s : String) : String := NamingStyle.upperSnake.apply s

/-- `Title Case` -/
def title (s : String) : String := NamingStyle.title.apply s

/-- `lower case` -/
def plain (s : String) : String := NamingStyle.plain.apply s

end DesignSystem.Text
