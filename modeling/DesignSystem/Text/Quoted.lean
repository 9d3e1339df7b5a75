import DesignSystem.Text.Basic
import DesignSystem.Text.ClusterTable

/-!
# Text inside string literals

Escaping for the literals that generated source holds: a backslash stands before a backslash, the
closing quote and every character that is special in the target's literals, and line feeds,
carriage returns and tabs have a letter of their own.
-/

set_option autoImplicit false

namespace DesignSystem.Text

/-- The form of a literal: its quote, and the further characters that a backslash protects. -/
structure QuoteStyle where
  quote : Char
  guarded : List Char

/-- Single quotes; a dollar sign would start an interpolation in some targets. -/
def QuoteStyle.single : QuoteStyle := ⟨'\'', ['$']⟩

/-- Double quotes. -/
def QuoteStyle.double : QuoteStyle := ⟨'"', []⟩

/-- Double quotes where a dollar sign starts a template. -/
def QuoteStyle.template : QuoteStyle := ⟨'"', ['$']⟩

/-- A character as it is written inside a literal. -/
def QuoteStyle.escapeChar (q : QuoteStyle) (c : Char) : List Char :=
  if c = '\\' then ['\\', '\\']
  else if c = '\n' then ['\\', 'n']
  else if c = '\r' then ['\\', 'r']
  else if c = '\t' then ['\\', 't']
  else if c = q.quote || q.guarded.contains c then ['\\', c]
  else [c]

/-- A text as it is written inside a literal. -/
def QuoteStyle.escape (q : QuoteStyle) (s : String) : String :=
  .ofList (s.toList.flatMap q.escapeChar)

/-- Escapes for single quotes. -/
def escapeSingle (s : String) : String := QuoteStyle.single.escape s

/-- Escapes for double quotes. -/
def escapeDouble (s : String) : String := QuoteStyle.double.escape s

/-- Escapes for double quotes where a dollar sign starts a template. -/
def escapeTemplate (s : String) : String := QuoteStyle.template.escape s

/-- A literal in single quotes. -/
def quotedSingle (s : String) : String := "'" ++ escapeSingle s ++ "'"

/-- A literal in double quotes. -/
def quotedDouble (s : String) : String := "\"" ++ escapeDouble s ++ "\""

/-- A literal in double quotes where a dollar sign starts a template. -/
def quotedTemplate (s : String) : String := "\"" ++ escapeTemplate s ++ "\""

/-- Ranges of the characters that leave no mark: controls, formats, separators other than the space,
and the numbers that stand for no common character. -/
def invisibleRanges : List (Nat × Nat) := [
  (0x0, 0x1f), (0x7f, 0xa0), (0xad, 0xad), (0x600, 0x605), (0x61c, 0x61c), (0x6dd, 0x6dd),
  (0x70f, 0x70f), (0x890, 0x891), (0x8e2, 0x8e2), (0x1680, 0x1680), (0x180e, 0x180e),
  (0x2000, 0x200f), (0x2028, 0x202f), (0x205f, 0x206f), (0x3000, 0x3000), (0xe000, 0xf8ff),
  (0xfdd0, 0xfdef), (0xfeff, 0xfeff), (0xfff0, 0xfffb), (0xfffe, 0xffff), (0x110bd, 0x110bd),
  (0x110cd, 0x110cd), (0x13430, 0x1343f), (0x1bca0, 0x1bca3), (0x1d173, 0x1d17a),
  (0x323b0, 0x10ffff)]

/-- Whether a character cannot be seen by itself: it leaves no mark, or it only extends the one
before it. The skin colors of pictographs extend and can be seen all the same. -/
def isInvisible (c : Char) : Bool :=
  inRanges invisibleRanges c.toNat ||
    inRanges extendRanges c.toNat && !inRanges [(0x1f3fb, 0x1f3ff)] c.toNat

/-- A character as it is written where every character is to be seen: one that cannot be seen is
written by its number. -/
def visibleChar (c : Char) : List Char :=
  if c = '"' ∨ c = '\\' then ['\\', c]
  else if c = '\n' then ['\\', 'n']
  else if c = '\r' then ['\\', 'r']
  else if c = '\t' then ['\\', 't']
  else if c = '\x00' then ['\\', '0']
  else if isInvisible c then ['\\', 'u', '\x7b'] ++ Nat.toDigits 16 c.toNat ++ ['\x7d']
  else [c]

/-- A literal in double quotes in which every character is to be seen. -/
def quotedVisible (s : String) : String :=
  .ofList ('"' :: s.toList.flatMap visibleChar ++ ['"'])

/-- What stands between single quotes at both ends of a text. -/
def unquoted? (s : String) : Option String := (dropFront? "'" s).bind (dropBack? "'")

end DesignSystem.Text
