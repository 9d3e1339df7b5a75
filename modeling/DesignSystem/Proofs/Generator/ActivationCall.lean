import DesignSystem.Proofs.Component.Styling
import DesignSystem.Proofs.Generator.Calls
import DesignSystem.Proofs.Types.CallbackType

/-!
# The call of the callback for an activation

Native components call the callback for an activation, or pass it on, without arguments. It is
chosen by its name, whatever its signature is.

* `Platform.plainCall`: the call of a callback without arguments, as it is written.
* `SwiftUI.infix_modifier`, `Compose.infix_link`: modifiers stand in sources.
* `ComponentSpec.activation_called`: the chosen callback is always called without arguments, which
  its type allows just if its signature has no parameters. `ComponentSpec.activation_called_value`
  is a button whose callback has one.
-/

set_option autoImplicit false

namespace DesignSystem

variable {m : ComponentModel} {q : PropModel}

/-! ## Modifiers in sources -/

theorem SwiftUI.infix_modifier {modifier : String} (h : modifier ∈ modifiers m) :
    modifier.toList <:+: (source m).toList := by
  have hline : "        " ++ modifier ∈ (modifiers m).map ("        " ++ ·) := List.mem_map_of_mem h
  refine infix_file (infix_after "        " modifier) ?_
  simp only [List.mem_append, hline, true_or, or_true]

theorem Compose.infix_of_mem_closeChain : ∀ {chain : List String} {link : String}, link ∈ chain →
    ∃ line ∈ closeChain chain, link.toList <:+: line.toList
  | [], _, h => absurd h List.not_mem_nil
  | [last], link, h => by
    obtain rfl := List.mem_singleton.1 h
    exact ⟨link ++ ",", .head _, Text.infix_append_left link ","⟩
  | first :: next :: rest, link, h => by
    rcases List.mem_cons.1 h with rfl | h
    · exact ⟨link, .head _, List.infix_rfl⟩
    · obtain ⟨line, hline, hin⟩ := infix_of_mem_closeChain h
      exact ⟨line, .tail _ hline, hin⟩

theorem Compose.infix_link {link : String} (h : link ∈ modifierChain m) :
    link.toList <:+: (source m).toList := by
  obtain ⟨line, hline, hin⟩ := infix_of_mem_closeChain h
  have hmem : "            " ++ line ∈ (closeChain (modifierChain m)).map ("            " ++ ·) :=
    List.mem_map_of_mem hline
  refine infix_file (hin.trans (infix_after "            " line)) ?_
  simp only [List.mem_append, hmem, true_or, or_true]

/-! ## The call -/

/-- A callback that is called, or passed on to be called, without arguments. -/
def Platform.plainCall : Platform → PropModel → String
  | swiftUI, q =>
    if q.isOptional then s!"Button(action: \x7b {q.ident}?() \x7d)"
    else s!"Button(action: \x7b {q.ident}() \x7d)"
  | compose, q =>
    if q.isOptional then
      s!".clickable(enabled = {q.ident} != null) \x7b {q.ident}?.invoke() \x7d"
    else s!".clickable(onClick = {q.ident})"
  | flutter, q => s!"onTap: {q.ident},"
  | _, _ => ""

theorem SwiftUI.infix_plainCall (h : m.activation? = some q) :
    (Platform.swiftUI.plainCall q).toList <:+: (source m).toList := by
  have hlayout : s!"        Button(action: \x7b {activationCall q} \x7d) \x7b" ∈ layout m := by
    unfold layout
    rw [h]
    simp only [List.mem_append, List.mem_cons, true_or]
  have hline : s!"        Button(action: \x7b {activationCall q} \x7d) \x7b" =
      "        " ++ Platform.swiftUI.plainCall q ++ " \x7b" := by
    rw [← String.toList_inj]
    unfold activationCall
    rw [Platform.plainCall]
    split <;> simp [toString]
  refine infix_file (infix_between "        " _ " \x7b") (List.mem_append_left _ ?_)
  rw [← hline]
  exact List.mem_append_left _ (List.mem_append_right _ hlayout)

theorem Compose.infix_plainCall (h : m.activation? = some q) :
    (Platform.compose.plainCall q).toList <:+: (source m).toList := by
  have hlink : clickable q ∈ modifierChain m := by
    unfold modifierChain
    rw [h]
    simp only [List.mem_append, Option.map_some, Option.toList_some, List.mem_cons, true_or,
      or_true]
  exact infix_link hlink

theorem Flutter.infix_plainCall (h : m.activation? = some q) :
    (Platform.flutter.plainCall q).toList <:+: (source m).toList := by
  have hchild : s!"  onTap: {q.ident}," ∈ child m := by
    unfold child
    rw [h]
    simp only [List.mem_cons, true_or, or_true]
  have hcall : "  " ++ Platform.flutter.plainCall q = s!"  onTap: {q.ident}," := by
    rw [← String.toList_inj, Platform.plainCall]
    simp [toString]
  have hline : "      " ++ ("  " ++ Platform.flutter.plainCall q) ∈
      (semantics m).map ("      " ++ ·) :=
    List.mem_map_of_mem (hcall ▸ List.mem_append_right _ hchild)
  refine infix_file ((infix_after "  " _).trans (infix_after "      " _)) ?_
  simp only [List.mem_append, hline, true_or, or_true]

/-- The callback that is chosen for an activation is called without arguments. -/
theorem Platform.infix_plainCall {platform : Platform} (hplatform : platform.nominal?.isSome)
    (h : m.activation? = some q) :
    (platform.plainCall q).toList <:+: (platform.generator.source m).toList := by
  cases platform with
  | swiftUI => exact SwiftUI.infix_plainCall h
  | compose => exact Compose.infix_plainCall h
  | flutter => exact Flutter.infix_plainCall h
  | react | vue | angular | svelte | css | tailwind => cases hplatform

/-! ## Components -/

/-- How the source of a component calls the callback `q` for an activation, which is from the prop
`p` of its specification. -/
structure ComponentSpec.Activates (c : ComponentSpec) (platform : Platform) (m : ComponentModel)
    (p : String × PropSpec) (q : PropModel) : Prop where
  mem : p ∈ c.props
  ident : q.ident = platform.types.ident (Text.camel p.1)
  callback : p.2.descriptor.isCallback = true
  type : (c.mapProp platform p).result = .ok q.type
  /-- It is called without arguments, whatever its signature is. -/
  called : (platform.plainCall q).toList <:+: (platform.generator.source m).toList
  /-- Its type takes none if its signature has no parameters. -/
  takesNothing : p.2.descriptor.params = [] → platform.takesNothing q.type = true
  /-- If it has parameters then so has the type. -/
  takes : platform.NamesParams p.2.descriptor → p.2.descriptor.params ≠ [] →
    platform.takesNothing q.type = false

variable {c : ComponentSpec} {platform : Platform} {options : TransformOptions}

/-- **The callback for an activation is called without arguments, which its type allows just if its
signature has no parameters.** -/
theorem ComponentSpec.activation_called (hc : c.error? = none)
    (hplatform : platform.nominal?.isSome) (h : c.model platform options = .ok m) (ts : FlatTokens)
    (hq : (m.withTokens ts).activation? = some q) :
    ∃ p, c.Activates platform (m.withTokens ts) p q := by
  obtain ⟨hmem, hcallback⟩ := activation?_spec hq
  obtain ⟨props, hprops, rfl⟩ := map_eq_ok h
  obtain ⟨p, hp, hresult⟩ := exists_of_forall₂ (Mapping.mapM_eq_ok hprops).1 hmem
  have hmodel := PropSpec.isModel_of_model hresult
  rw [(PropSpec.appears_of_model hresult).callback] at hcallback
  obtain ⟨hnone, hsome⟩ := Platform.takesNothing_iff hplatform
    (isIdentifier_propHint (issues_of_error? hc) hp) hcallback hmodel.type
  exact ⟨p, hp, hmodel.ident, hcallback, hmodel.type, Platform.infix_plainCall hplatform hq, hnone,
    fun hnames hne => Bool.eq_false_iff.2 fun htype => hne (hsome hnames htype)⟩

/-- A button with a callback of a given signature. -/
def signedButton (signature : TypeDescriptor) : ComponentSpec where
  name := "Button"
  category := .form
  accessibility := { role := "button" }
  props := [("on_press", { descriptor := signature })]

/-- A callback without parameters, whose result is a callback with one. -/
def onPressUndo : TypeDescriptor :=
  .signed .function [] (some (.signed .function [("steps", .primitive .number none)] none))

theorem ComponentSpec.activation_called_undo : (signedButton onPressUndo).error? = none ∧
    ∃ m q, (signedButton onPressUndo).model .flutter {} = .ok m ∧ m.activation? = some q ∧
      q.type = "void Function(double) Function()" ∧ Platform.flutter.takesNothing q.type = true ∧
      "onTap: onPress,".toList <:+: (Flutter.source m).toList := by
  have hc : (signedButton onPressUndo).error? = none := by decide +kernel
  obtain ⟨m, hm, hdata⟩ := exists_of_map_eq (r := (signedButton onPressUndo).model .flutter {})
    (f := fun m => m.activation?.map fun q => (q.type, q.ident))
    (b := some ("void Function(double) Function()", "onPress")) (by decide +kernel)
  obtain ⟨q, hq, hpair⟩ := Option.map_eq_some_iff.1 hdata
  obtain ⟨htype, hident⟩ := Prod.mk.inj hpair
  obtain ⟨p, hactivates⟩ := activation_called hc rfl hm [] hq
  obtain rfl := List.mem_singleton.1 hactivates.mem
  have hcall := hactivates.called
  rw [Platform.plainCall, hident] at hcall
  exact ⟨hc, m, q, hm, hq, htype, hactivates.takesNothing rfl, hcall⟩

/-- A callback that is given a text. -/
def onPressValue : TypeDescriptor := .signed .function [("value", .text)] none

/-- A button whose callback is given a text passes validation. No platform has a type for the
callback that takes nothing, and all call it without arguments. -/
theorem ComponentSpec.activation_called_value : (signedButton onPressValue).error? = none ∧
    ∀ expected ∈ [(Platform.swiftUI, "(String) -> Void", "Button(action: \x7b onPress?() \x7d)"),
      (.compose, "(String) -> Unit",
        ".clickable(enabled = onPress != null) \x7b onPress?.invoke() \x7d"),
      (.flutter, "void Function(String)", "onTap: onPress,")],
    ∃ m q, (signedButton onPressValue).model expected.1 {} = .ok m ∧ m.activation? = some q ∧
      q.type = expected.2.1 ∧ expected.1.takesNothing q.type = false ∧
      expected.2.2.toList <:+: (expected.1.generator.source m).toList := by
  have hfound : ∀ platform type call, platform.nominal?.isSome →
      platform.takesNothing type = false →
      (((signedButton onPressValue).model platform {}).map fun m => m.activation?.map fun q =>
        (q.type, platform.plainCall q)).toOption = some (some (type, call)) →
      ∃ m q, (signedButton onPressValue).model platform {} = .ok m ∧ m.activation? = some q ∧
        q.type = type ∧ platform.takesNothing q.type = false ∧
        call.toList <:+: (platform.generator.source m).toList := by
    intro platform type call hplatform htype hdata
    obtain ⟨m, hm, hpair⟩ := exists_of_map_eq hdata
    obtain ⟨q, hq, hpair⟩ := Option.map_eq_some_iff.1 hpair
    obtain ⟨rfl, rfl⟩ := Prod.mk.inj hpair
    exact ⟨m, q, hm, hq, rfl, htype, Platform.infix_plainCall hplatform hq⟩
  refine ⟨by decide +kernel, ?_⟩
  simp only [List.forall_mem_cons]
  refine ⟨?_, ?_, ?_, List.forall_mem_nil _⟩
  all_goals exact hfound _ _ _ rfl (by decide) (by decide +kernel)

end DesignSystem
