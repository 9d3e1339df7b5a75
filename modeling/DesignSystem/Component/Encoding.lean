import DesignSystem.Component.Model
import DesignSystem.Schema.Encoding

/-!
# Component models as data

The form in which templates see a component model.
-/

set_option autoImplicit false

namespace DesignSystem

open Json (Value)

/-- Null or a text. -/
def textOrNull (s : Option String) : Value := (s.map Value.string).getD .null

/-- The data of a deprecation. -/
def Deprecation.toData (d : Deprecation) : Value :=
  .object [("since", .string d.since), ("reason", .string d.reason),
    ("alternative", textOrNull d.alternative)]

/-- The data of a prop. -/
def PropModel.toData (p : PropModel) : Value :=
  .object [("name", .string p.name), ("ident", .string p.ident), ("pascal", .string p.pascal),
    ("kebab", .string p.kebab), ("ty", .string p.type), ("optional_ty", .string p.optionalType),
    ("required", .bool p.required), ("optional", .bool p.isOptional),
    ("default", textOrNull p.default), ("description", textOrNull p.description),
    ("deprecated", (p.deprecated.map Deprecation.toData).getD .null),
    ("enum_values", (p.enumerated.map textsToJson).getD .null),
    ("is_callback", .bool p.isCallback), ("is_content", .bool p.isContent),
    ("sample", textOrNull p.sample)]

/-- The data of a declaration. -/
def declarationData (d : String × String) : Value :=
  .object [("name", .string d.1), ("source", .string d.2)]

/-- The data of an axis. -/
def AxisModel.toData (a : AxisModel) : Value :=
  .object [("name", .string a.name), ("ident", .string a.ident), ("values", textsToJson a.values)]

/-- The data of a condition. -/
def ConditionModel.toData (c : ConditionModel) : Value :=
  .object [("prop", .string c.prop), ("value", .string c.value), ("literal", textOrNull c.literal)]

/-- The data of a compound variant. -/
def CompoundModel.toData (c : CompoundModel) : Value :=
  .object [("conditions", .array (c.conditions.map ConditionModel.toData)),
    ("class_name", textOrNull c.className), ("description", textOrNull c.description)]

/-- The data of a token. -/
def ComponentToken.toData (t : ComponentToken) : Value :=
  .object [("name", .string t.name), ("key", .string t.key), ("value", .string t.value),
    ("reference", textOrNull t.reference)]

namespace ComponentModel

/-- The data of the accessibility of a component. -/
def accessibilityData (m : ComponentModel) : Value :=
  .object [("role", .string m.role), ("label", textOrNull m.accessibility.label),
    ("keyboard", .array (m.accessibility.keyboard.map KeyboardInteraction.toJson)),
    ("announcements", textsToJson m.accessibility.announcements),
    ("focusable", .bool m.focusable), ("live_region", .bool m.liveRegion)]

/-- The data of what is to be generated. -/
def featureData (m : ComponentModel) : Value :=
  .object [("typescript", .bool m.typed), ("i18n", .bool m.localized),
    ("tests", .bool m.options.includeTests), ("stories", .bool m.options.includeStories),
    ("flags", .object (m.options.flags.mapValues .bool))]

/-- The data of the platform. -/
def platformData (m : ComponentModel) : Value :=
  let family := m.platform.family
  .object [("id", .string m.platform.name), ("family", .string family.name),
    ("convention", textOrNull m.options.convention), ("is_web", .bool (family = .web)),
    ("is_mobile", .bool (family = .mobile)), ("is_native", .bool (family = .native)),
    ("is_stylesheet", .bool (family = .stylesheet))]

/-- The data of a component. -/
def toData (m : ComponentModel) : Value :=
  .object [("name", .string m.name), ("pascal_name", .string m.pascalName),
    ("camel_name", .string m.camelName), ("kebab_name", .string m.kebabName),
    ("snake_name", .string m.snakeName), ("category", .string m.category.name),
    ("description", textOrNull m.description),
    ("props", .array (m.props.map PropModel.toData)),
    ("declarations", .array (m.declarations.map declarationData)),
    ("declarations_source", .string m.declarations.source),
    ("variants", .array (m.variants.map AxisModel.toData)),
    ("compounds", .array (m.compounds.map CompoundModel.toData)),
    ("a11y", m.accessibilityData), ("features", m.featureData), ("platform", m.platformData),
    ("locales", textsToJson m.options.locales),
    ("strings", .object (m.strings.mapValues .string)),
    ("tokens", .array (m.tokens.map ComponentToken.toData)),
    ("has_props", .bool (!m.props.isEmpty)),
    ("has_callbacks", .bool (!m.callbacks.isEmpty)),
    ("has_content", .bool (!m.contentProps.isEmpty))]

end ComponentModel

end DesignSystem
