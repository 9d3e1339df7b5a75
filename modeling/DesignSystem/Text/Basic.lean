/-!
# Text

Operations on text that the rest of the library shares: trimming, splitting at a character,
replacing one piece of text by another, and taking a piece off either end. White space is the
Unicode property `White_Space`. Each operation is defined on the list of characters.
-/

set_option autoImplicit false

namespace DesignSystem.Text

/-- Whether a number lies in one of the ranges, both ends included. -/
def inRanges (ranges : List (Nat × Nat)) (n : Nat) : Bool :=
  ranges.any fun r => r.1 ≤ n && n ≤ r.2

/-- Ranges of the characters that are white space. -/
def blankRanges : List (Nat × Nat) := [
  (0x9, 0xd), (0x20, 0x20), (0x85, 0x85), (0xa0, 0xa0), (0x1680, 0x1680), (0x2000, 0x200a),
  (0x2028, 0x2029), (0x202f, 0x202f), (0x205f, 0x205f), (0x3000, 0x3000)]

/-- White space. -/
def isBlankChar (c : Char) : Bool := inRanges blankRanges c.toNat

/-- A lowercase or uppercase letter from `a` to `z`, or a digit. -/
def isPlainAlphanumeric (c : Char) : Bool := c.isAlpha || c.isDigit

/-- Drops a run of characters at the end. -/
def dropTrailing (p : Char → Bool) (cs : List Char) : List Char :=
  (cs.reverse.dropWhile p).reverse

/-- Drops white space on the right. -/
def trimRight (s : String) : String := .ofList (dropTrailing isBlankChar s.toList)

/-- Drops white space on both sides. -/
def trim (s : String) : String :=
  .ofList (dropTrailing isBlankChar (s.toList.dropWhile isBlankChar))

/-- Drops one character on both sides, as often as it stands there. -/
def trimChar (c : Char) (s : String) : String :=
  .ofList (dropTrailing (· == c) (s.toList.dropWhile (· == c)))

/-- Whether nothing but white space is left of a text. -/
def isBlank (s : String) : Bool := s.toList.all isBlankChar

/-- The pieces between the characters that satisfy `p`; always at least one piece. -/
def splitList (p : Char → Bool) : List Char → List (List Char)
  | [] => [[]]
  | c :: cs =>
    if p c then [] :: splitList p cs
    else
      match splitList p cs with
      | [] => [[c]]
      | piece :: pieces => (c :: piece) :: pieces

/-- The pieces of a text between the characters that satisfy `p`. -/
def splitWhere (p : Char → Bool) (s : String) : List String :=
  (splitList p s.toList).map String.ofList

/-- The pieces of a text between the occurrences of a character. -/
def splitAtChar (c : Char) (s : String) : List String := splitWhere (· == c) s

/-- What follows `front` in a text that starts with it. -/
def dropFrontList : List Char → List Char → Option (List Char)
  | [], cs => some cs
  | _ :: _, [] => none
  | a :: front, c :: cs => if a = c then dropFrontList front cs else none

/-- What follows `front` in a text that starts with it. -/
def dropFront? (front s : String) : Option String :=
  (dropFrontList front.toList s.toList).map String.ofList

/-- What precedes `back` in a text that ends with it. -/
def dropBack? (back s : String) : Option String :=
  (dropFrontList back.toList.reverse s.toList.reverse).map fun r => String.ofList r.reverse

/-- Whether a text starts with another. -/
def startsWith (front s : String) : Bool := (dropFront? front s).isSome

/-- Whether a text ends with another. -/
def endsWith (back s : String) : Bool := (dropBack? back s).isSome

/-- The text before and after the first occurrence of `sep`. -/
def cutList (sep : List Char) : List Char → Option (List Char × List Char)
  | [] => if sep.isEmpty then some ([], []) else none
  | c :: cs =>
    match dropFrontList sep (c :: cs) with
    | some rest => some ([], rest)
    | none => (cutList sep cs).map fun r => (c :: r.1, r.2)

/-- The text before and after the first occurrence of `sep`. -/
def cut? (sep s : String) : Option (String × String) :=
  (cutList sep.toList s.toList).map fun r => (.ofList r.1, .ofList r.2)

/-- Whether `part` occurs in a text. -/
def contains (part s : String) : Bool := (cutList part.toList s.toList).isSome

/-- Replaces the occurrences of `old`, read left to right; `skip` characters still belong to the
occurrence that was found last. An empty `old` is never found. -/
def replaceList (old new : List Char) : Nat → List Char → List Char
  | _, [] => []
  | skip + 1, _ :: cs => replaceList old new skip cs
  | 0, c :: cs =>
    match old with
    | [] => c :: replaceList old new 0 cs
    | _ :: tail =>
      if (dropFrontList old (c :: cs)).isSome then new ++ replaceList old new tail.length cs
      else c :: replaceList old new 0 cs

/-- Replaces every occurrence of `old`, read left to right, by `new`. -/
def replace (old new s : String) : String :=
  .ofList (replaceList old.toList new.toList 0 s.toList)

/-- Replaces the first occurrence of `old` by `new`. -/
def replaceFirst (old new s : String) : String :=
  match cut? old s with
  | some (before, after) => before ++ new ++ after
  | none => s

/-- Repeats a character. -/
def repeated (c : Char) (n : Nat) : String := .ofList (List.replicate n c)

/-- Texts joined by `sep`. -/
def join (sep : String) (items : List String) : String := sep.intercalate items

/-! ## Lines -/

/-- Drops a carriage return at the end of a line. -/
def dropReturn (line : List Char) : List Char :=
  match line.reverse with
  | '\r' :: rest => rest.reverse
  | _ => line

/-- Lines from the pieces between line feeds. A piece that a line feed ends loses a carriage return
at its end; the last piece is ended by none, and is a line only if it holds a character. -/
def linesOfPieces : List (List Char) → List (List Char)
  | [] => []
  | [last] => if last.isEmpty then [] else [last]
  | piece :: next :: pieces => dropReturn piece :: linesOfPieces (next :: pieces)

/-- The lines of a text. A line feed at the very end starts no further line. -/
def lines (s : String) : List String :=
  (linesOfPieces (splitList (· == '\n') s.toList)).map String.ofList

/-- Lines joined by line feeds. -/
def unlines (items : List String) : String := join "\n" items

/-- Lines as the text of a file, in which every line ends with a line feed. -/
def file (items : List String) : String := unlines items ++ "\n"

/-- Puts spaces in front of every line that holds more than white space. -/
def indent (spaces : Nat) (s : String) : String :=
  unlines ((lines s).map fun line => if isBlank line then line else repeated ' ' spaces ++ line)

end DesignSystem.Text
