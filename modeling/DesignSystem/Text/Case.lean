import DesignSystem.Text.Basic
import DesignSystem.Text.CaseTable

/-!
# Letter case

The full case mappings of the Unicode standard: a character may become several, and a capital
sigma becomes the final form where it ends a word.
-/

set_option autoImplicit false

namespace DesignSystem.Text

/-- The character that a run maps `n` to, if `n` belongs to it. -/
def CaseRun.shift? (r : CaseRun) (n : Nat) : Option Nat :=
  if r.first ≤ n ∧ n ≤ r.last ∧ (n - r.first) % r.stride = 0 then some ((n + r.shift).toNat)
  else none

/-- The characters that `c` maps to: several by `expansions`, one by `runs`, else itself. -/
def mapCase (expansions : List (Nat × List Nat)) (runs : List CaseRun) (c : Char) : List Char :=
  match expansions.find? (·.1 == c.toNat) with
  | some (_, several) => several.map Char.ofNat
  | none =>
    match runs.findSome? (·.shift? c.toNat) with
    | some one => [Char.ofNat one]
    | none => [c]

/-- The lowercase form of a character, without regard to its neighbours. -/
def lowerChar (c : Char) : List Char :=
  if c.toNat < 128 then [c.toLower] else mapCase lowerExpansions lowerRuns c

/-- The uppercase form of a character. -/
def upperChar (c : Char) : List Char :=
  if c.toNat < 128 then [c.toUpper] else mapCase upperExpansions upperRuns c

/-- Whether the first character that is not ignored for case is a cased one. -/
def meetsCased (cs : List Char) : Bool :=
  match cs.dropWhile (fun c => inRanges caseIgnorableRanges c.toNat) with
  | [] => false
  | c :: _ => inRanges casedRanges c.toNat

/-- A capital sigma is final if a cased character precedes it and none follows it. -/
def isFinalSigma (before after : List Char) : Bool := meetsCased before && !meetsCased after

/-- Lowercase characters; `before` holds what has been read, the nearest character first. -/
def lowerList (before : List Char) : List Char → List Char
  | [] => []
  | c :: cs =>
    let mapped :=
      if c = 'Σ' then (if isFinalSigma before cs then ['ς'] else ['σ']) else lowerChar c
    mapped ++ lowerList (c :: before) cs

/-- The lowercase form of a text. -/
def lower (s : String) : String := .ofList (lowerList [] s.toList)

/-- The uppercase form of a text. -/
def upper (s : String) : String := .ofList (s.toList.flatMap upperChar)

end DesignSystem.Text
