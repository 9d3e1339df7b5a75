import DesignSystem.Json.Basic
import DesignSystem.Numeric.Reading

/-!
# Lexemes of JSON text

The text is cut into punctuation, words, numbers and strings, up to the first place where that is
not possible. Some lexemes have a shape that is right and a value that cannot be had: a number
beyond the largest one, a string with half of a surrogate pair. These disturb only a reader that
asks for their value.
-/

set_option autoImplicit false

namespace DesignSystem.Json

/-- Why a JSON text cannot be read. -/
inductive Fault
  /-- The text is not JSON. -/
  | malformed
  /-- The text ends before the value does. -/
  | ended
  /-- The text is JSON, but not of the shape that is asked for. -/
  | unexpected
  deriving DecidableEq

/-- A lexeme. -/
inductive Lexeme
  | openObject | closeObject | openArray | closeArray | colon | comma
  | null
  | bool (b : Bool)
  | number (n : Number)
  | string (s : String)
  /-- A string or number that has no value; skipping it meets the fault `skip`, if any. -/
  | valueless (read : Fault) (skip : Option Fault)
  /-- The text cannot be cut further. -/
  | broken (fault : Fault)

/-- White space between lexemes. -/
def isSpace (c : Char) : Bool := c = ' ' || c = '\n' || c = '\t' || c = '\r'

/-! ## Numbers -/

/-- The digits of a whole part in a 64-bit word, and how many digits no longer fit. -/
def gatherWhole : Nat → List Char → Nat × Nat
  | n, [] => (n, 0)
  | n, c :: cs =>
    let next := digitsValue n [c]
    if next < Nat.pow 2 64 then gatherWhole next cs else (n, cs.length + 1)

/-- The digits of a fraction appended to a 64-bit word, and how many fitted. -/
def gatherFraction : Nat → Nat → List Char → Nat × Nat
  | n, places, [] => (n, places)
  | n, places, c :: cs =>
    let next := digitsValue n [c]
    if next < Nat.pow 2 64 then gatherFraction next (places + 1) cs else (n, places)

/-- A power of ten as a floating-point number. -/
def powerOfTen (n : Nat) : Scalar := .ofDecimal false 1 n

/-- `digits · 10 ^ exponent`, with `digits` rounded first and one rounded multiplication or division
by a power of ten. Below the range of powers, a division by the greatest power comes first. -/
def scaled (digits : Nat) (exponent : Int) : Scalar :=
  let f := Scalar.ofNat digits
  if 308 < exponent then (if digits = 0 then f else .infinite false)
  else if 0 ≤ exponent then f.mul (powerOfTen exponent.toNat)
  else if -308 ≤ exponent then f.div (powerOfTen (-exponent).toNat)
  else if -616 ≤ exponent then (f.div (powerOfTen 308)).div (powerOfTen (-exponent - 308).toNat)
  else .ofNat 0

/-- The lexeme of a floating-point number. One beyond the largest number has no value. -/
def realLexeme (negative : Bool) (digits : Nat) (exponent : Int) : Lexeme :=
  match (scaled digits exponent).withSign negative with
  | .finite x => .number (.real x)
  | _ => .valueless .malformed none

/-- The lexeme of a number without point and exponent: an integer if it fits 64 bits with or without
a sign. A negative zero is a floating-point number. -/
def wholeLexeme (negative : Bool) (whole : List Char) : Lexeme :=
  match gatherWhole 0 whole with
  | (n, 0) =>
    if !negative then .number (.integer n)
    else if 0 < n ∧ n ≤ Nat.pow 2 63 then .number (.integer (-n))
    else realLexeme true n 0
  | (n, dropped) => realLexeme negative n dropped

/-- The lexeme of a number with a fraction or an exponent. -/
def partsLexeme (negative : Bool) (whole fraction : List Char) (exponent : Int) : Lexeme :=
  let (n, dropped) := gatherWhole 0 whole
  let (n, places) := gatherFraction n 0 fraction
  realLexeme negative n (exponent + dropped - places)

/-- What stands where a digit is needed. -/
def missingDigit (cs : List Char) : Lexeme :=
  .broken (if cs.isEmpty then .ended else .malformed)

/-- The exponent of a number, after its `e`. -/
def lexExponent (negative : Bool) (whole fraction : List Char) (cs : List Char) :
    Lexeme × List Char :=
  let (below, body) := match cs with
    | '-' :: r => (true, r)
    | '+' :: r => (false, r)
    | r => (false, r)
  match spanDigits body with
  | ([], rest) => (missingDigit rest, rest)
  | (digits, rest) =>
    let e : Int := digitsValue 0 digits
    (partsLexeme negative whole fraction (if below then -e else e), rest)

/-- What follows the whole part and the fraction of a number. -/
def lexAfterFraction (negative : Bool) (whole fraction : List Char) (isReal : Bool) :
    List Char → Lexeme × List Char
  | 'e' :: rest => lexExponent negative whole fraction rest
  | 'E' :: rest => lexExponent negative whole fraction rest
  | rest =>
    (if isReal then partsLexeme negative whole fraction 0 else wholeLexeme negative whole, rest)

/-- A number without its sign. -/
def lexUnsigned (negative : Bool) (cs : List Char) : Lexeme × List Char :=
  match spanDigits cs with
  | ([], rest) => (missingDigit rest, rest)
  | ('0' :: _ :: _, rest) => (.broken .malformed, rest)
  | (whole, '.' :: rest) =>
    match spanDigits rest with
    | ([], rest) => (missingDigit rest, rest)
    | (fraction, rest) => lexAfterFraction negative whole fraction true rest
  | (whole, rest) => lexAfterFraction negative whole [] false rest

/-! ## Strings -/

/-- A piece of a string: a character, or a 16-bit unit written in hexadecimal. -/
inductive Piece
  | char (c : Char)
  | unit (n : Nat)

/-- The value of a hexadecimal digit. -/
def hexValue? (c : Char) : Option Nat :=
  if c.isDigit then some (c.toNat - '0'.toNat)
  else if 'a' ≤ c ∧ c ≤ 'f' then some (c.toNat - 'a'.toNat + 10)
  else if 'A' ≤ c ∧ c ≤ 'F' then some (c.toNat - 'A'.toNat + 10)
  else none

/-- The character that a one-letter escape stands for. -/
def simpleEscape? : Char → Option Char
  | '"' => some '"'
  | '\\' => some '\\'
  | '/' => some '/'
  | 'b' => some '\x08'
  | 'f' => some '\x0c'
  | 'n' => some '\n'
  | 'r' => some '\r'
  | 't' => some '\t'
  | _ => none

/-- Where the reader of a string stands: between pieces, after a backslash, or inside the four
hexadecimal digits of a unit, with those read so far. -/
inductive StringPlace
  | text
  | escape
  | hex (count value : Nat)

/-- The pieces of a string up to its closing quote, last piece first, and what follows the quote; or
the fault that stops the reader. -/
def lexPieces (pieces : List Piece) :
    StringPlace → List Char → List Piece × Except Fault (List Char)
  | _, [] => (pieces, .error .ended)
  | .text, '"' :: cs => (pieces, .ok cs)
  | .text, '\\' :: cs => lexPieces pieces .escape cs
  | .text, c :: cs =>
    if c.toNat < 32 then (pieces, .error .malformed) else lexPieces (.char c :: pieces) .text cs
  | .escape, 'u' :: cs => lexPieces pieces (.hex 0 0) cs
  | .escape, c :: cs =>
    match simpleEscape? c with
    | some plain => lexPieces (.char plain :: pieces) .text cs
    | none => (pieces, .error .malformed)
  | .hex count value, c :: cs =>
    match hexValue? c with
    | none => (pieces, .error .malformed)
    | some d =>
      let value := value * 16 + d
      if count = 3 then lexPieces (.unit value :: pieces) .text cs
      else lexPieces pieces (.hex (count + 1) value) cs

/-- The text of pieces, in order. Units of a surrogate pair stand for one character; half of a pair
is a fault, which for a pair cut off at the end is `atEnd`. -/
def pieceChars (atEnd : Fault) : List Piece → Except Fault (List Char)
  | [] => .ok []
  | .char c :: rest => (pieceChars atEnd rest).map (c :: ·)
  | .unit n :: rest =>
    if n < 0xd800 ∨ 0xe000 ≤ n then (pieceChars atEnd rest).map (Char.ofNat n :: ·)
    else if 0xdc00 ≤ n then .error .malformed
    else
      match rest with
      | [] => .error atEnd
      | .unit m :: rest =>
        if 0xdc00 ≤ m ∧ m < 0xe000 then
          (pieceChars atEnd rest).map
            (Char.ofNat (0x10000 + (n - 0xd800) * 0x400 + (m - 0xdc00)) :: ·)
        else .error .malformed
      | .char _ :: _ => .error .malformed

/-- A string after its opening quote. -/
def lexString (cs : List Char) : Lexeme × List Char :=
  match lexPieces [] .text cs with
  | (pieces, .ok rest) =>
    match pieceChars .malformed pieces.reverse with
    | .ok chars => (.string (.ofList chars), rest)
    | .error fault => (.valueless fault none, rest)
  | (pieces, .error fault) =>
    match pieceChars fault pieces.reverse with
    | .ok _ => (.broken fault, [])
    | .error read =>
      if read = fault then (.broken fault, []) else (.valueless read (some fault), [])

/-! ## Cutting a text -/

/-- The rest of a word whose first letter has been read. -/
def lexWord (meaning : Lexeme) : List Char → List Char → Lexeme × List Char
  | [], cs => (meaning, cs)
  | _ :: _, [] => (.broken .ended, [])
  | w :: word, c :: cs => if w = c then lexWord meaning word cs else (.broken .malformed, cs)

/-- The lexeme that starts with a character, and what follows it. -/
def lexOne (c : Char) (cs : List Char) : Lexeme × List Char :=
  match c with
  | '\x7b' => (.openObject, cs)
  | '\x7d' => (.closeObject, cs)
  | '[' => (.openArray, cs)
  | ']' => (.closeArray, cs)
  | ':' => (.colon, cs)
  | ',' => (.comma, cs)
  | '"' => lexString cs
  | '-' => lexUnsigned true cs
  | 't' => lexWord (.bool true) ['r', 'u', 'e'] cs
  | 'f' => lexWord (.bool false) ['a', 'l', 's', 'e'] cs
  | 'n' => lexWord .null ['u', 'l', 'l'] cs
  | c => if c.isDigit then lexUnsigned false (c :: cs) else (.broken .malformed, cs)

/-- The lexemes of a text. -/
def lexemes (cs : List Char) : List Lexeme :=
  match cs with
  | [] => []
  | c :: rest =>
    if isSpace c then lexemes rest
    else
      match lexOne c rest with
      | (.broken fault, _) => [.broken fault]
      | (lexeme, after) =>
        -- every lexeme holds at least one character
        if after.length < rest.length + 1 then lexeme :: lexemes after else [lexeme]
  termination_by cs.length

end DesignSystem.Json
