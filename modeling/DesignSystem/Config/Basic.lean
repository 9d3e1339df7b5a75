import DesignSystem.Folder
import DesignSystem.Schema.Encoding
import DesignSystem.Yaml.Reader
import DesignSystem.Yaml.Shape

/-!
# Configuration

The settings of an engine, read from JSON or YAML. What is not set has a default.
-/

set_option autoImplicit false

namespace DesignSystem

/-- The settings of an engine. -/
structure Config where
  /-- How many transformations are kept. -/
  cacheCapacity : Nat := 128
  /-- The folder of the templates; without one there are none. -/
  templateFolder : Option String := none
  /-- What is logged. -/
  logFilter : String := "info"
  /-- The options of requests that have none of their own. -/
  defaultOptions : TransformOptions := {}

/-- What is wrong with the value of a variable that has to be a number. -/
inductive NumeralFault
  | missing
  | badDigit
  | tooLarge
  deriving DecidableEq

/-- The fault in words. -/
def NumeralFault.message : NumeralFault → String
  | missing => "cannot parse integer from empty string"
  | badDigit => "invalid digit found in string"
  | tooLarge => "number too large to fit in target type"

/-- Why there is no configuration. -/
inductive ConfigError
  | unreadable (path : String) (failure : FileFailure)
  | json
  | yaml
  | unsupportedFormat (path : String)
  | invalidVariable (name value : String) (fault : NumeralFault)
  deriving DecidableEq

/-- The error in words. -/
def ConfigError.message : ConfigError → String
  | unreadable path failure => "Failed to read config '" ++ path ++ "': " ++ failure.message
  | json => "Invalid JSON config"
  | yaml => "Invalid YAML config"
  | unsupportedFormat path =>
    "Unsupported config format for '" ++ path ++ "' (expected .json, .yaml or .yml)"
  | invalidVariable name value fault =>
    "Invalid value '" ++ value ++ "' for " ++ name ++ ": " ++ fault.message

namespace Decoder

/-- Reads a natural number of at most 64 bits. -/
def natural : Decoder Nat
  | .number n =>
    match n.toNat? with
    | some k => if k < Nat.pow 2 64 then .ok k else unexpected
    | none => unexpected
  | .valueless read _ => .error (.json read)
  | _ => unexpected

/-- Reads a configuration. -/
def config : Decoder Config :=
  record ["cache_capacity", "template_dir", "log_filter", "default_options"] fun r =>
    Config.mk <$> r.withDefault "cache_capacity" 128 natural <*> r.optional "template_dir" text
      <*> r.withDefault "log_filter" "info" text <*> r.withDefault "default_options" {} options

end Decoder

namespace Config

/-- The shape of options. -/
def optionsShape : Yaml.Shape :=
  .record [("typescript", .bool), ("locales", .list .text), ("include_tests", .bool),
    ("include_stories", .bool), ("convention", .optional .text), ("flags", .map .bool)]

/-- The shape of a configuration. -/
def shape : Yaml.Shape :=
  .record [("cache_capacity", .natural), ("template_dir", .optional .text), ("log_filter", .text),
    ("default_options", optionsShape)]

/-- Reads a configuration in JSON. -/
def ofJsonText (text : String) : Except ConfigError Config :=
  (Decoder.config.ofText text).mapError fun _ => .json

/-- Reads a configuration in YAML. -/
def ofYamlText (text : String) : Except ConfigError Config :=
  match (Yaml.read? text).bind (Yaml.Node.toJson? shape) with
  | some v => (Decoder.config.ofJson v).mapError fun _ => .yaml
  | none => .error .yaml

/-- A configuration as JSON. -/
def toJson (c : Config) : Json.Value :=
  .object [("cache_capacity", .ofNat c.cacheCapacity),
    ("template_dir", (c.templateFolder.map Json.Value.string).getD .null),
    ("log_filter", .string c.logFilter), ("default_options", c.defaultOptions.toJson)]

end Config

end DesignSystem
