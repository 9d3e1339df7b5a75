import DesignSystem.Schema.Basic
import DesignSystem.Schema.Decoder

/-!
# Design schemas as JSON

How each part of a schema is read and written. Fields without content are left out where that loses
nothing; everything else is written, defaults included.
-/

set_option autoImplicit false

namespace DesignSystem

open Json (Value)
open TypeDescriptor (optionalField)

/-! ## Reading -/

namespace Decoder

/-- Reads a deprecation. -/
def deprecation : Decoder Deprecation :=
  record ["since", "reason", "alternative"] fun r =>
    Deprecation.mk <$> r.required "since" text <*> r.required "reason" text
      <*> r.optional "alternative" text

/-- Reads a prop: its own fields, and the fields of its descriptor among them. -/
def propSpec : Decoder PropSpec :=
  let names := ["description", "required", "default", "examples", "deprecated"]
  openRecord names fun r =>
    let descriptor := match r.others names with
      | .ok fields =>
        match TypeDescriptor.ofJson? (.object fields) with
        | some d => .ok d
        | none => .problem (r.last + 1) (.json .unexpected)
      | .problem place error => .problem place error
    PropSpec.mk <$> descriptor <*> r.optional "description" text
      <*> r.withDefault "required" false bool <*> r.optional "default" value
      <*> r.withDefault "examples" [] (list value) <*> r.optional "deprecated" deprecation

/-- Reads a compound variant. -/
def compoundVariant : Decoder CompoundVariant :=
  record ["conditions", "className", "description"] fun r =>
    CompoundVariant.mk <$> r.required "conditions" (entries value)
      <*> r.optional "className" text <*> r.optional "description" text

/-- Reads variants. -/
def variants : Decoder Variants :=
  record ["simple", "compound"] fun r =>
    Variants.mk <$> r.withDefault "simple" [] (entries (list text))
      <*> r.withDefault "compound" [] (list compoundVariant)

/-- Reads a keyboard interaction. -/
def keyboardInteraction : Decoder KeyboardInteraction :=
  record ["key", "action"] fun r =>
    KeyboardInteraction.mk <$> r.required "key" text <*> r.required "action" text

/-- Reads accessibility. Announcements have a second name. -/
def accessibility : Decoder Accessibility :=
  record ["role", "label", "keyboard", "announcements"]
    (fun r => Accessibility.mk <$> r.withDefault "role" "" text <*> r.optional "label" text
      <*> r.withDefault "keyboard" [] (list keyboardInteraction)
      <*> r.withDefault "announcements" [] (list text))
    fun name => if name = "screenReader" then "announcements" else name

/-- Reads a platform identifier. -/
def platformId : Decoder PlatformId := fun d => (text d).map .ofText

/-- Reads the platforms of a component. -/
def platforms : Decoder (List PlatformId) :=
  record ["supported"] fun r => r.withDefault "supported" [] (list platformId)

/-- Reads a component. -/
def component : Decoder ComponentSpec :=
  record ["name", "category", "description", "props", "variants", "accessibility", "platforms"]
    fun r =>
      ComponentSpec.mk <$> r.required "name" text
        <*> r.required "category" (choice ComponentCategory.all ComponentCategory.name)
        <*> r.optional "description" text <*> r.withDefault "props" [] (entries propSpec)
        <*> r.withDefault "variants" {} variants
        <*> r.withDefault "accessibility" {} accessibility
        <*> r.withDefault "platforms" [] platforms

/-- Reads the token layers. -/
def layers : Decoder Token.Layers :=
  record ["primitive", "semantic", "component"] fun r =>
    Token.Layers.mk <$> r.withDefault "primitive" [] group <*> r.withDefault "semantic" [] group
      <*> r.withDefault "component" [] group

/-- Reads a schema. -/
def schema : Decoder Schema :=
  record ["id", "version", "tokens", "components"] fun r =>
    Schema.mk <$> r.required "id" text <*> r.optional "version" text
      <*> r.withDefault "tokens" {} layers <*> r.withDefault "components" [] (entries component)

/-- Reads options. -/
def options : Decoder TransformOptions :=
  record ["typescript", "locales", "include_tests", "include_stories", "convention", "flags"]
    fun r =>
      TransformOptions.mk <$> r.withDefault "typescript" true bool
        <*> r.withDefault "locales" ["en"] (list text)
        <*> r.withDefault "include_tests" true bool
        <*> r.withDefault "include_stories" true bool <*> r.optional "convention" text
        <*> r.withDefault "flags" [] fun d => (entries bool d).map Entries.sortByName

/-- Reads a text as a whole. What follows the value is looked at last. -/
def ofText {α : Type} (read : Decoder α) (s : String) : Except DecodeError α :=
  match Json.Draft.ofText s with
  | (d, trailing) => do
    let a ← read d
    uncut trailing a

/-- Reads a JSON value. -/
def ofJson {α : Type} (read : Decoder α) (v : Value) : Except DecodeError α := read v.draft

end Decoder

/-! ## Writing -/

/-- A list of texts. -/
def textsToJson (items : List String) : Value := .array (items.map .string)

/-- The JSON form of a deprecation. -/
def Deprecation.toJson (d : Deprecation) : Value :=
  .object ([("since", .string d.since), ("reason", .string d.reason)] ++
    optionalField "alternative" .string d.alternative)

/-- The JSON form of a prop. -/
def PropSpec.toJson (p : PropSpec) : Value :=
  .object (p.descriptor.toFields ++ optionalField "description" .string p.description ++
    [("required", .bool p.required)] ++ optionalField "default" (fun v => v) p.default ++
    (if p.examples.isEmpty then [] else [("examples", .array p.examples)]) ++
    optionalField "deprecated" Deprecation.toJson p.deprecated)

/-- The JSON form of a compound variant. -/
def CompoundVariant.toJson (c : CompoundVariant) : Value :=
  .object (("conditions", .object c.conditions) :: optionalField "className" .string c.className ++
    optionalField "description" .string c.description)

/-- The JSON form of variants. -/
def Variants.toJson (v : Variants) : Value :=
  .object [("simple", .object (v.simple.mapValues textsToJson)),
    ("compound", .array (v.compound.map CompoundVariant.toJson))]

/-- The JSON form of a keyboard interaction. -/
def KeyboardInteraction.toJson (k : KeyboardInteraction) : Value :=
  .object [("key", .string k.key), ("action", .string k.action)]

/-- The JSON form of accessibility. -/
def Accessibility.toJson (a : Accessibility) : Value :=
  .object (("role", .string a.role) :: optionalField "label" .string a.label ++
    [("keyboard", .array (a.keyboard.map KeyboardInteraction.toJson)),
      ("announcements", textsToJson a.announcements)])

/-- The JSON form of a component. -/
def ComponentSpec.toJson (c : ComponentSpec) : Value :=
  .object ([("name", .string c.name), ("category", .string c.category.name)] ++
    optionalField "description" .string c.description ++
    [("props", .object (c.props.mapValues PropSpec.toJson)), ("variants", c.variants.toJson),
      ("accessibility", c.accessibility.toJson),
      ("platforms", .object [("supported", textsToJson (c.platforms.map (·.text)))])])

/-- The JSON form of token layers. -/
def Token.Layers.toJson (t : Token.Layers) : Value :=
  .object (Token.Layer.all.map fun layer => (layer.name, (t.tree layer).toJson))

/-- The JSON form of a schema. -/
def Schema.toJson (s : Schema) : Value :=
  .object (("id", .string s.id) :: optionalField "version" .string s.version ++
    [("tokens", s.tokens.toJson),
      ("components", .object (s.components.mapValues ComponentSpec.toJson))])

/-- The JSON form of options. -/
def TransformOptions.toJson (o : TransformOptions) : Value :=
  .object [("typescript", .bool o.typescript), ("locales", textsToJson o.locales),
    ("include_tests", .bool o.includeTests), ("include_stories", .bool o.includeStories),
    ("convention", (o.convention.map Value.string).getD .null),
    ("flags", .object (o.flags.mapValues .bool))]

end DesignSystem
