import DesignSystem.Schema.Basic

/-!
# Validation

Problems of the tokens or of component names reject a whole schema. Problems of one component are
collected, so that the others can still be used.
-/

set_option autoImplicit false

namespace DesignSystem

/-- Why a schema is rejected. -/
inductive SchemaError
  | emptyId
  | tokens (error : Token.ResolveError)
  | duplicateComponent (name : String)
  deriving DecidableEq

/-- The error in words. -/
def SchemaError.message : SchemaError → String
  | emptyId => "Schema id must not be empty"
  | tokens error => error.message
  | duplicateComponent name => "Component name '" ++ name ++ "' is declared more than once"

/-- What is wrong with the type of a prop. -/
inductive DescriptorIssue
  | emptyEnumeration
  | emptyValues
  | emptyUnion
  | boundsReversed
  | fieldName (name : String)
  deriving DecidableEq

/-- What is wrong with a component. -/
inductive Issue
  | componentName (name : String)
  | missingRole
  | incompleteInteraction
  | propName (name : String)
  | descriptor (prop : String) (issue : DescriptorIssue)
  | default (prop type : String)
  | incompleteDeprecation (prop : String)
  | unknownAlternative (prop alternative : String)
  | emptyAxis (axis : String)
  | noConditions (index : Nat)
  | unknownCondition (index : Nat) (prop : String)
  | unfitCondition (index : Nat) (expected prop : String)
  | registeredAs (key name : String)
  deriving DecidableEq

/-- The issue in words. -/
def DescriptorIssue.message (subject : String) : DescriptorIssue → String
  | emptyEnumeration => subject ++ " declares an empty enum"
  | emptyValues => subject ++ " declares an empty value set"
  | emptyUnion => subject ++ " declares an empty union"
  | boundsReversed => subject ++ " has minItems greater than maxItems"
  | fieldName name => subject ++ " has invalid field name '" ++ name ++ "'"

/-- The number of a compound variant. -/
def compoundNumber (index : Nat) : String := "compound variant #" ++ toString index

/-- The issue in words. -/
def Issue.message : Issue → String
  | componentName name => "name '" ++ name ++ "' is not PascalCase"
  | missingRole => "accessibility role is required"
  | incompleteInteraction => "keyboard interactions need both a key and an action"
  | propName name => "prop name '" ++ name ++ "' is not a valid identifier"
  | descriptor prop issue => issue.message ("prop '" ++ prop ++ "'")
  | default prop type => "default for prop '" ++ prop ++ "' does not match its type " ++ type
  | incompleteDeprecation prop => "deprecation of prop '" ++ prop ++ "' needs 'since' and 'reason'"
  | unknownAlternative prop alternative =>
    "prop '" ++ prop ++ "' names unknown alternative '" ++ alternative ++ "'"
  | emptyAxis axis => "variant axis '" ++ axis ++ "' has no values"
  | noConditions index => compoundNumber index ++ " has no conditions"
  | unknownCondition index prop =>
    compoundNumber index ++ " references unknown prop '" ++ prop ++ "'"
  | unfitCondition index expected prop =>
    compoundNumber index ++ " expects " ++ expected ++ " for prop '" ++ prop ++
      "', which its type does not allow"
  | registeredAs key name => "registered under key '" ++ key ++ "' but named '" ++ name ++ "'"

/-- A component that is not valid, with all its issues. -/
structure SpecError where
  component : String
  issues : List Issue
  deriving DecidableEq

/-- The error in words. -/
def SpecError.message (e : SpecError) : String :=
  "Invalid specification for component '" ++ e.component ++ "': " ++
    Text.join "; " (e.issues.map Issue.message)

/-! ## Names -/

/-- An uppercase letter followed by letters and digits. -/
def isPascalCase (name : String) : Bool :=
  match name.toList with
  | [] => false
  | c :: cs => c.isUpper && cs.all Text.isPlainAlphanumeric

/-- A letter or underscore followed by letters, digits and underscores. -/
def isIdentifier (name : String) : Bool :=
  match name.toList with
  | [] => false
  | c :: cs => (c.isAlpha || c = '_') && cs.all fun c => Text.isPlainAlphanumeric c || c = '_'

/-! ## Components -/

namespace TypeDescriptor

/-- Whether both bounds are given and the lower one is greater. -/
def boundsReversed : Option Nat → Option Nat → Bool
  | some low, some high => high < low
  | _, _ => false

mutual

/-- The issues of a descriptor. -/
def issues : TypeDescriptor → List DescriptorIssue
  | primitive _ (some []) => [.emptyEnumeration]
  | primitive _ _ => []
  | complex _ => []
  | signed _ params returns => issuesOfNamed params ++ issuesOfReturn returns
  | custom _ (some []) => [.emptyValues]
  | custom _ _ => []
  | union types => (if types.isEmpty then [.emptyUnion] else []) ++ issuesOfAll types
  | array items minItems maxItems _ =>
    (if boundsReversed minItems maxItems then [.boundsReversed] else []) ++ issues items
  | object properties _ => issuesOfFields properties

/-- The issues of alternatives. -/
def issuesOfAll : List TypeDescriptor → List DescriptorIssue
  | [] => []
  | d :: ds => issues d ++ issuesOfAll ds

/-- The issues of parameters. -/
def issuesOfNamed : List (String × TypeDescriptor) → List DescriptorIssue
  | [] => []
  | (_, d) :: rest => issues d ++ issuesOfNamed rest

/-- The issues of an object's fields and their names. -/
def issuesOfFields : List (String × TypeDescriptor) → List DescriptorIssue
  | [] => []
  | (name, d) :: rest =>
    (if isIdentifier name then [] else [.fieldName name]) ++ issues d ++ issuesOfFields rest

/-- The issues of a result type. -/
def issuesOfReturn : Option TypeDescriptor → List DescriptorIssue
  | none => []
  | some d => issues d

end

end TypeDescriptor

/-- An issue if a condition holds. -/
def issueIf (bad : Bool) (issue : Issue) : List Issue := if bad then [issue] else []

/-- The issues of a prop's deprecation. -/
def Deprecation.issues (d : Deprecation) (prop : String) (props : Entries PropSpec) : List Issue :=
  issueIf (Text.isBlank d.since || Text.isBlank d.reason) (.incompleteDeprecation prop) ++
    match d.alternative with
    | some alternative =>
      issueIf (!props.has alternative) (.unknownAlternative prop alternative)
    | none => []

/-- The issues of a prop among all props. -/
def PropSpec.issues (p : PropSpec) (name : String) (props : Entries PropSpec) : List Issue :=
  issueIf (!isIdentifier name) (.propName name) ++
    p.descriptor.issues.map (.descriptor name) ++
    (match p.default with
      | some v => issueIf (!p.descriptor.fits v) (.default name p.descriptor.summary)
      | none => []) ++
    match p.deprecated with
    | some d => d.issues name props
    | none => []

/-- The issues of a condition of a compound variant. -/
def conditionIssues (index : Nat) (props : Entries PropSpec) (condition : String × Json.Value) :
    List Issue :=
  match props.get? condition.1 with
  | none => [.unknownCondition index condition.1]
  | some p =>
    issueIf (!p.descriptor.fits condition.2)
      (.unfitCondition index condition.2.compact condition.1)

/-- The issues of a compound variant. -/
def CompoundVariant.issues (c : CompoundVariant) (index : Nat) (props : Entries PropSpec) :
    List Issue :=
  issueIf c.conditions.isEmpty (.noConditions index) ++
    c.conditions.flatMap (conditionIssues index props)

/-- The issues of a component. -/
def ComponentSpec.issues (c : ComponentSpec) : List Issue :=
  issueIf (!isPascalCase c.name) (.componentName c.name) ++
    issueIf (Text.isBlank c.accessibility.role) .missingRole ++
    c.accessibility.keyboard.flatMap (fun k =>
      issueIf (Text.isBlank k.key || Text.isBlank k.action) .incompleteInteraction) ++
    c.props.flatMap (fun p => p.2.issues p.1 c.props) ++
    c.variants.simple.flatMap (fun axis => issueIf axis.2.isEmpty (.emptyAxis axis.1)) ++
    c.variants.compound.zipIdx.flatMap fun v => v.1.issues v.2 c.props

/-- The error of a component with issues. -/
def specError? (component : String) (issues : List Issue) : Option SpecError :=
  if issues.isEmpty then none else some ⟨component, issues⟩

/-- What is wrong with a component, if anything is. -/
def ComponentSpec.error? (c : ComponentSpec) : Option SpecError := specError? c.name c.issues

/-- What is wrong with a component that a schema holds under a key, if anything is. -/
def ComponentSpec.entryError? (key : String) (c : ComponentSpec) : Option SpecError :=
  specError? c.name (c.issues ++ issueIf (key ≠ c.name) (.registeredAs key c.name))

/-! ## Schemas -/

/-- The first name that occurred before. -/
def firstRepeat? (seen : List String) : List String → Option String
  | [] => none
  | name :: rest => if name ∈ seen then some name else firstRepeat? (name :: seen) rest

/-- A schema that has been checked: its tokens, and the components that are not valid. -/
structure ValidatedSchema where
  tokens : FlatTokens
  invalid : List SpecError

/-- Whether a component of this name is not valid. -/
def ValidatedSchema.isInvalid (v : ValidatedSchema) (component : String) : Bool :=
  v.invalid.any (·.component = component)

/-- Checks a schema. -/
def Schema.validate (s : Schema) : Except SchemaError ValidatedSchema :=
  if Text.isBlank s.id then .error .emptyId
  else
    match s.tokens.resolve with
    | .error e => .error (.tokens e)
    | .ok tokens =>
      match firstRepeat? [] (s.components.map (·.2.name)) with
      | some name => .error (.duplicateComponent name)
      | none => .ok ⟨tokens, s.components.filterMap fun c => c.2.entryError? c.1⟩

end DesignSystem
