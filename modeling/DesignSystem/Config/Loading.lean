import DesignSystem.Config.Basic
import DesignSystem.Text.Case

/-!
# Loading a configuration

A configuration comes from a file, whose name tells the format, and variables of the environment
override single settings.
-/

set_option autoImplicit false

namespace DesignSystem.Config

/-! ## Files -/

/-- The name of the file at the end of a path. -/
def fileName? (path : String) : Option String :=
  match ((Folder.steps path).filter (!Folder.stays ·)).getLast? with
  | some ".." => none
  | name => name

/-- What follows the last dot of a file name, if anything precedes it. -/
def extension? (path : String) : Option String := do
  let name ← fileName? path
  match (Text.splitAtChar '.' name).reverse with
  | last :: first :: rest => if rest.isEmpty && first.isEmpty then none else some last
  | _ => none

/-- A text with the letters from `A` to `Z` in lowercase. -/
def lowercase (s : String) : String := .ofList (s.toList.map Char.toLower)

/-- Reads the configuration in a file of a folder. The file is read before its name is looked at. -/
def ofFile (root : Folder) (path : String) : Except ConfigError Config :=
  match root.read path with
  | .error failure => .error (.unreadable path failure)
  | .ok text =>
    match (extension? path).map lowercase with
    | some "json" => ofJsonText text
    | some "yaml" => ofYamlText text
    | some "yml" => ofYamlText text
    | _ => .error (.unsupportedFormat path)

/-! ## Variables -/

/-- The variable of the capacity of the cache. -/
def capacityVariable : String := "PRISM_CACHE_CAPACITY"

/-- The variable of the folder of the templates. -/
def templateVariable : String := "PRISM_TEMPLATE_DIR"

/-- The variable of what is logged. -/
def logVariable : String := "PRISM_LOG"

/-- Reads digits from left to right, continuing from `n`; the number has at most 64 bits. -/
def readDigits (n : Nat) : List Char → Except NumeralFault Nat
  | [] => .ok n
  | c :: cs =>
    if !c.isDigit then .error .badDigit
    else
      let n := n * 10 + (c.toNat - '0'.toNat)
      if n < Nat.pow 2 64 then readDigits n cs else .error .tooLarge

/-- Reads a natural number of at most 64 bits, which a plus sign may precede. -/
def readNatural (s : String) : Except NumeralFault Nat :=
  match s.toList with
  | [] => .error .missing
  | ['+'] => .error .badDigit
  | '+' :: digits => readDigits 0 digits
  | digits => readDigits 0 digits

/-- A variable that holds more than white space. -/
def filled? (env : Entries String) (name : String) : Option String :=
  (env.get? name).filter (!Text.isBlank ·)

/-- The capacity with the variable for it. -/
def capacityWith (env : Entries String) (capacity : Nat) : Except ConfigError Nat :=
  match env.get? capacityVariable with
  | none => .ok capacity
  | some value =>
    (readNatural (Text.trim value)).mapError (.invalidVariable capacityVariable value)

/-- The configuration with the variables of an environment. A variable for the capacity has to be a
number; the others count if they hold more than white space. -/
def withVariables (env : Entries String) (c : Config) : Except ConfigError Config := do
  let capacity ← capacityWith env c.cacheCapacity
  .ok { c with
    cacheCapacity := capacity
    templateFolder := filled? env templateVariable <|> c.templateFolder
    logFilter := (filled? env logVariable).getD c.logFilter }

end DesignSystem.Config
