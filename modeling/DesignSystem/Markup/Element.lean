import DesignSystem.Component.Model

/-!
# Elements of a document

Which element stands for a role, which attributes and events of it the props of a component are
bound to, and which of them are its content.
-/

set_option autoImplicit false

namespace DesignSystem

/-- The elements that components are made of, each with the role that it has by itself. -/
def nativeRoles : Entries String := [
  ("button", "button"), ("a", "link"), ("nav", "navigation"), ("dialog", "dialog"), ("ul", "list"),
  ("li", "listitem"), ("img", "img"), ("form", "form"), ("header", "banner"),
  ("footer", "contentinfo"), ("main", "main")]

/-- The element for a role. -/
def elementForRole : String → String
  | "textbox" | "searchbox" => "input"
  | "region" | "article" => "section"
  | role => ((nativeRoles.find? (·.2 = role)).map (·.1)).getD "div"

namespace ComponentModel

/-- The element that a component is rendered as. -/
def element (m : ComponentModel) : String := elementForRole m.role

/-- Whether the element has the role by itself, so that it need not be stated. -/
def roleIsNative (m : ComponentModel) : Bool := nativeRoles.contains (m.element, m.role)

/-- Whether the element has to be made focusable. -/
def needsTabIndex (m : ComponentModel) : Bool := m.focusable && m.element = "div"

/-- The name for assistive technology: the label, or else the component's name as a title. -/
def accessibleLabel (m : ComponentModel) : String :=
  m.accessibility.label.getD (Text.title m.name)

end ComponentModel

namespace PropModel

/-- The name of the event that a callback stands for: its identifier without `on`, in lowercase. -/
def eventName (p : PropModel) : String :=
  Text.lower ((Text.dropFront? "on" p.ident).getD p.ident)

/-- The event of the document that a callback is bound to. -/
def documentEvent? (p : PropModel) : Option String :=
  if p.isCallback then
    match p.eventName with
    | "press" | "click" | "tap" | "activate" | "select" => some "click"
    | "change" | "valuechange" => some "change"
    | "input" => some "input"
    | "focus" => some "focus"
    | "blur" => some "blur"
    | "keydown" => some "keydown"
    | "submit" => some "submit"
    | _ => none
  else none

/-- Attributes that an element has by itself. -/
def nativeAttributes : List String := [
  "disabled", "checked", "placeholder", "name", "value", "href", "target", "type", "readOnly",
  "required", "id", "title", "alt", "src"]

/-- Whether a prop is handed on as an attribute of the element. -/
def isNativeAttribute (p : PropModel) : Bool :=
  p.isValue && p.enumerated.isNone && nativeAttributes.contains p.ident

/-- Names of props that are shown as text. -/
def textNames : List String := ["label", "text", "title", "children", "message"]

/-- Whether a prop is shown as text. -/
def isText (p : PropModel) : Bool := p.isValue && textNames.contains p.ident

/-- Whether a prop chooses a styling: it is enumerated and no callback. -/
def isModifier (p : PropModel) : Bool := p.enumerated.isSome && !p.isCallback

/-- The values that a prop can take, if it is enumerated. -/
def choices (p : PropModel) : List String := p.enumerated.getD []

end PropModel

namespace ComponentModel

/-- The props that choose a styling. -/
def modifiers (m : ComponentModel) : List PropModel := m.props.filter (·.isModifier)

/-- The props that are shown as text. -/
def textProps (m : ComponentModel) : List PropModel := m.props.filter (·.isText)

/-- The callbacks for a click. -/
def clickCallbacks (m : ComponentModel) : List PropModel :=
  m.props.filter fun p => p.documentEvent? = some "click"

/-- The callback that a component calls when it is activated. -/
def activation? (m : ComponentModel) : Option PropModel :=
  m.props.find? fun p => p.isCallback && ["press", "click", "tap", "activate"].contains p.eventName

end ComponentModel

end DesignSystem
