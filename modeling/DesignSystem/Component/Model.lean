import DesignSystem.Schema.Basic
import DesignSystem.Types.Platform

/-!
# Component models

A component model is what a generator needs to know about one component on one platform: its names
in each style, its props with their types on the platform, the types that those declare, its
variants, its accessibility, and the tokens that belong to it.
-/

set_option autoImplicit false

namespace DesignSystem

/-- A prop on a platform. -/
structure PropModel where
  /-- The name in the schema. -/
  name : String
  ident : String
  pascal : String
  kebab : String
  type : String
  /-- The type if the prop may be left out. -/
  optionalType : String
  required : Bool
  /-- The default value as a literal. -/
  default : Option String
  description : Option String
  deprecated : Option Deprecation
  enumerated : Option (List String)
  isCallback : Bool
  isContent : Bool
  /-- A literal for examples. -/
  sample : Option String

/-- Whether a prop can be left out and then has no value. -/
def PropModel.isOptional (p : PropModel) : Bool := !p.required && p.default.isNone

/-- Whether a prop holds a plain value. -/
def PropModel.isValue (p : PropModel) : Bool := !p.isCallback && !p.isContent

/-- The values along one axis of variants. -/
structure AxisModel where
  name : String
  ident : String
  values : List String

/-- A value that a prop must have. -/
structure ConditionModel where
  /-- The identifier of the prop. -/
  prop : String
  /-- The label of the value. -/
  value : String
  literal : Option String

/-- A compound variant on a platform. -/
structure CompoundModel where
  conditions : List ConditionModel
  className : Option String
  description : Option String

/-- A token of the component layer that belongs to a component. -/
structure ComponentToken where
  /-- The flat name. -/
  name : String
  /-- The flat name without the component. -/
  key : String
  value : String
  reference : Option String

/-- A component on a platform. -/
structure ComponentModel where
  name : String
  pascalName : String
  camelName : String
  kebabName : String
  snakeName : String
  category : ComponentCategory
  description : Option String
  props : List PropModel
  declarations : TypeScope
  variants : List AxisModel
  compounds : List CompoundModel
  accessibility : Accessibility
  options : TransformOptions
  platform : Platform
  /-- Texts that can be localized. -/
  strings : Entries String
  tokens : List ComponentToken

namespace ComponentModel

/-- Roles that take the focus without a keyboard interaction. -/
def focusableRoles : List String := [
  "button", "link", "checkbox", "radio", "switch", "tab", "menuitem", "option", "slider",
  "spinbutton", "textbox", "combobox", "searchbox"]

/-- Roles whose changes are announced. -/
def liveRoles : List String := ["alert", "status", "log", "marquee", "timer", "progressbar"]

/-- The role of a component. -/
def role (m : ComponentModel) : String := m.accessibility.role

/-- Whether a component takes the focus. -/
def focusable (m : ComponentModel) : Bool :=
  !m.accessibility.keyboard.isEmpty || focusableRoles.contains m.role

/-- Whether changes of a component are announced. -/
def liveRegion (m : ComponentModel) : Bool :=
  !m.accessibility.announcements.isEmpty || liveRoles.contains m.role

/-- Whether texts are localized. -/
def localized (m : ComponentModel) : Bool := !m.options.locales.isEmpty

/-- Whether sources are typed. -/
def typed (m : ComponentModel) : Bool := m.options.typescript

/-- The props that hold plain values. -/
def valueProps (m : ComponentModel) : List PropModel := m.props.filter (·.isValue)

/-- The props that hold content. -/
def contentProps (m : ComponentModel) : List PropModel := m.props.filter (·.isContent)

/-- The callbacks. -/
def callbacks (m : ComponentModel) : List PropModel := m.props.filter (·.isCallback)

/-- The prop of a schema name. -/
def prop? (m : ComponentModel) (name : String) : Option PropModel := m.props.find? (·.name = name)

end ComponentModel

/-! ## Building models -/

/-- The name for the types of a prop: the component's name followed by the prop's. -/
def propHint (component prop : String) : String := Text.pascal component ++ Text.pascal prop

/-- The value that stands for a prop in examples. -/
def PropSpec.exampleValue? (p : PropSpec) : Option Json.Value :=
  p.examples.head? <|> p.default <|> p.descriptor.sample?

/-- A prop of a component on a platform. -/
def PropSpec.model (p : PropSpec) (t : TypeTable) (component name : String) : Mapping PropModel :=
  let hint := propHint component name
  do
    let type ← t.map p.descriptor hint
    pure {
      name := name
      ident := t.ident (Text.camel name)
      pascal := Text.pascal name
      kebab := Text.kebab name
      type := type
      optionalType := t.optional type
      required := p.required
      default := p.default.bind fun v => t.literal p.descriptor v hint
      description := p.description
      deprecated := p.deprecated
      enumerated := p.descriptor.enumerated?
      isCallback := p.descriptor.isCallback
      isContent := p.descriptor.isContent
      sample := p.exampleValue?.bind fun v => t.literal p.descriptor v hint }

/-- A condition of a compound variant on a platform. -/
def ComponentSpec.condition (c : ComponentSpec) (t : TypeTable) (prop : String) (v : Json.Value) :
    ConditionModel where
  prop := t.ident (Text.camel prop)
  value := v.label
  literal := do
    let p ← c.props.get? prop
    t.literal p.descriptor v (propHint c.name prop)

/-- The first letter in uppercase. -/
def upperFirst (s : String) : String :=
  match s.toList with
  | [] => ""
  | c :: cs => .ofList (Text.upperChar c ++ cs)

/-- A name as a sentence: lowercase words, the first letter in uppercase. -/
def sentence (s : String) : String := upperFirst (Text.plain s)

/-- The texts of a component that can be localized, by keys. -/
def ComponentSpec.strings (c : ComponentSpec) : Entries String :=
  Entries.ofList ([("name", Text.title c.name)] ++
    (c.description.map fun d => ("description", d)).toList ++
    (c.accessibility.label.map fun l => ("a11y.label", l)).toList ++
    c.accessibility.announcements.map fun event =>
      ("announce." ++ Text.camel event, sentence event))

/-- The model of a component on a platform, without tokens. -/
def ComponentSpec.model (c : ComponentSpec) (platform : Platform) (options : TransformOptions) :
    Except UnmappableType ComponentModel :=
  let t := platform.types
  let mapped := c.props.mapM fun (p : String × PropSpec) => p.2.model t c.name p.1
  mapped.result.map fun props => {
    name := c.name
    pascalName := Text.pascal c.name
    camelName := Text.camel c.name
    kebabName := Text.kebab c.name
    snakeName := Text.snake c.name
    category := c.category
    description := c.description
    props := props
    declarations := TypeScope.declareAll [] mapped.declared
    variants := c.variants.simple.map fun axis =>
      ⟨axis.1, t.ident (Text.camel axis.1), axis.2⟩
    compounds := c.variants.compound.map fun v =>
      ⟨v.conditions.map fun condition => c.condition t condition.1 condition.2,
        v.className, v.description⟩
    accessibility := c.accessibility
    options := options
    platform := platform
    strings := c.strings
    tokens := [] }

/-- The tokens of the component layer that belong to a component: those in a group of its name. -/
def ComponentModel.ownTokens (m : ComponentModel) (ts : FlatTokens) : List ComponentToken :=
  (ts.ofLayer .component).filterMap fun t =>
    match t.place.path with
    | group :: key :: rest =>
      if group ∈ [m.kebabName, m.camelName, m.snakeName] then
        some ⟨t.name, Token.flatName (key :: rest), t.value.render, t.reference⟩
      else none
    | _ => none

/-- The model with the tokens that belong to the component. -/
def ComponentModel.withTokens (m : ComponentModel) (ts : FlatTokens) : ComponentModel :=
  { m with tokens := m.ownTokens ts }

end DesignSystem
