import DesignSystem.Generator.Flutter
import DesignSystem.Proofs.Component.Defaults
import DesignSystem.Proofs.Generator.Calls
import DesignSystem.Proofs.Types.ConstantLiteral

/-!
# Default values on Flutter

The constructor of a widget has a parameter for each prop, with a default value if the prop is not
required and has one that is taken for a constant: any literal but the call that parses an address.

* `Flutter.constructorLines`: the constructor.
* `Flutter.isConstant_iff`: which default values are constants.
* `Flutter.exists_address`: which are not written.
* `ComponentSpec.writesDefaults`: what the constructor of a component has.
-/

set_option autoImplicit false

namespace DesignSystem

open Reading

/-! ## Default values -/

section
variable {hasCase : String → String → Bool} {d : TypeDescriptor} {v : Json.Value}
  {hint type literal text : String} {q : PropModel}

/-- A list gets the word `const`. -/
theorem Flutter.constantDefault?_of_list (hq : q.default = some literal)
    (h : Text.startsWith "[" literal = true) :
    constantDefault? q = some s!"const {literal}" := by
  obtain ⟨rest, hrest⟩ := Option.isSome_iff_exists.1 h
  have hhead : literal.toList.head? = some '[' := by
    rw [Text.eq_append_of_dropFront? hrest, String.toList_append]
    rfl
  have hparse : Text.startsWith "Uri.parse(" literal = false :=
    Text.startsWith_of_head?_ne (c := 'U') rfl (by rw [hhead]; decide)
  rw [constantDefault?, hq, Option.bind_some, hparse, if_neg Bool.false_ne_true, if_pos h]

/-- What is no list stays as it is, unless it is an address. -/
theorem Flutter.constantDefault?_of_item (hq : q.default = some literal)
    (h : Text.startsWith "[" literal = false) :
    constantDefault? q = if Text.startsWith "Uri.parse(" literal then none else some literal := by
  rw [constantDefault?, hq, Option.bind_some, h, if_neg Bool.false_ne_true]

/-- A default value that is written is a constant just if all values are that its literal is written
from. -/
theorem Flutter.isConstant_iff (hhint : isIdentifier hint)
    (hmap : (Dart.language.map d hint).result = .ok type)
    (hliteral : Dart.language.literal? d v hint = some literal) (hq : q.default = some literal)
    (h : constantDefault? q = some text) :
    isConstant hasCase text = true ↔ ∀ a ∈ atoms false d v hint, a.IsConstant hasCase := by
  obtain ⟨ts, hwrites, hform⟩ := exists_form hasCase hhint hmap hliteral
  cases hform with
  | list hstarts hconstant =>
    cases (constantDefault?_of_list hq hstarts).symm.trans h
    exact (isConstant_const_iff hwrites).trans (hconstant false)
  | atom _ hstarts honly _ hconstant =>
    rw [constantDefault?_of_item hq hstarts, Option.ite_none_left_eq_some] at h
    cases h.2
    rw [honly, List.forall_mem_singleton]
    exact (Reading.isConstant_iff hwrites).trans (hconstant false)

/-- Only an address by itself is not written as a default value. -/
theorem Flutter.exists_address (hhint : isIdentifier hint)
    (hmap : (Dart.language.map d hint).result = .ok type)
    (hliteral : Dart.language.literal? d v hint = some literal) (hq : q.default = some literal)
    (h : constantDefault? q = none) : ∃ a, atoms false d v hint = [a] ∧ a.IsMade .url := by
  obtain ⟨ts, -, hform⟩ := exists_form (fun _ _ => true) hhint hmap hliteral
  cases hform with
  | list hstarts _ => cases (constantDefault?_of_list hq hstarts).symm.trans h
  | atom _ hstarts honly haddress _ =>
    rw [constantDefault?_of_item hq hstarts, ite_eq_left_iff] at h
    exact ⟨_, honly false, haddress.1 (by_contra fun hparse => nomatch h hparse)⟩

theorem Flutter.parameter_of_required (h : q.required = true) :
    parameter q = s!"required this.{q.ident}," := if_pos h

theorem Flutter.parameter_of_default (hq : q.required = false)
    (h : constantDefault? q = some text) : parameter q = s!"this.{q.ident} = {text}," := by
  rw [parameter, hq, if_neg Bool.false_ne_true, h]

theorem Flutter.parameter_of_none (hq : q.required = false) (h : constantDefault? q = none) :
    parameter q = s!"this.{q.ident}," := by
  rw [parameter, hq, if_neg Bool.false_ne_true, h]

/-- Without a default value a field is nullable. -/
theorem Flutter.mem_fieldLines_of_none (hq : q.required = false) (h : constantDefault? q = none) :
    s!"final {q.optionalType} {q.ident};" ∈ fieldLines q := by
  have hnullable : isNullable q = true := by
    rw [isNullable, hq, h]
    rfl
  rw [fieldLines, hnullable]
  exact List.mem_append_right _ (List.mem_singleton.2 rfl)

end

/-! ## Constructors -/

/-- The lines of the constructor of a widget. -/
def Flutter.constructorLines (m : ComponentModel) : List String :=
  [s!"  const {m.pascalName}(\x7b", "    super.key,"] ++
    m.props.map (fun p => "    " ++ parameter p) ++ ["  \x7d);"]

section
variable {m : ComponentModel}

theorem Flutter.infix_constructor :
    (Text.unlines (constructorLines m)).toList <:+: (source m).toList := by
  have hne : constructorLines m ≠ [] := List.cons_ne_nil _ _
  refine (Text.infix_unlines_of_infix ?_ hne).trans (Text.infix_append_left _ _)
  exact ⟨["import 'package:flutter/material.dart';", ""] ++ m.declarationLines ++
      (m.description.map ("/// " ++ ·)).toList ++
        [s!"class {m.pascalName} extends StatelessWidget \x7b"],
    _, by simp only [constructorLines, List.append_assoc, List.cons_append, List.nil_append]; rfl⟩

theorem Flutter.infix_field {q : PropModel} (hq : q ∈ m.props) {line : String}
    (hline : line ∈ fieldLines q) : ("\n  " ++ line ++ "\n").toList <:+: (source m).toList := by
  have hfields : "  " ++ line ∈ (m.props.flatMap fieldLines).map ("  " ++ ·) :=
    List.mem_map_of_mem (List.mem_flatMap.2 ⟨q, hq, hline⟩)
  have htext : "\n  " ++ line ++ "\n" = "\n" ++ ("  " ++ line) ++ "\n" := by
    rw [← String.append_assoc]
    rfl
  rw [htext]
  refine Text.infix_fileLine "import 'package:flutter/material.dart';" ("  " ++ line) ?_ rfl ?_
  · simp only [List.mem_append, hfields, true_or, or_true]
  · intro heq
    have hhead := congrArg (fun s => s.toList.head?) heq
    rw [String.toList_append] at hhead
    cases hhead

theorem ComponentModel.mem_declarationLines {d : String × String} (hd : d ∈ m.declarations) :
    d.2 ∈ m.declarationLines := List.mem_flatMap.2 ⟨d, hd, .head _⟩

theorem Flutter.infix_declaration {d : String × String} (hd : d ∈ m.declarations) :
    d.2.toList <:+: (source m).toList := by
  refine @infix_file _ d.2 _ List.infix_rfl ?_
  simp only [List.mem_append, m.mem_declarationLines hd, true_or, or_true]

end

/-! ## Components -/

/-- What the constructor and the fields have for a prop. -/
structure ComponentSpec.WritesDefault (c : ComponentSpec) (m : ComponentModel)
    (p : String × PropSpec) (q : PropModel) : Prop where
  required : q.required = p.2.required
  /-- The parameter for a required prop has no default value. -/
  bare : q.required = true → Flutter.parameter q = s!"required this.{q.ident},"
  /-- A default value that is written is a constant just if all values are that its literal is
  written from. -/
  constant : ∀ text, q.required = false → Flutter.constantDefault? q = some text →
    Flutter.parameter q = s!"this.{q.ident} = {text}," ∧ ∃ v, p.2.default = some v ∧
      (isConstant (m.declarations.declaresCase .dart) text = true ↔
        ∀ a ∈ atoms false p.2.descriptor v (propHint c.name p.1),
          a.IsConstant (m.declarations.declaresCase .dart)) ∧
      (c.KeepsDeclarations .flutter m →
        ∀ a ∈ atoms false p.2.descriptor v (propHint c.name p.1), a.IsCase → a.value.IsScalar →
          m.declarations.declaresCase .dart a.hint (Dart.ident (caseIdent a.value)) = true)
  /-- Only an address by itself is not written, of the default values that have a literal. -/
  omitted : ∀ v literal, p.2.default = some v → q.default = some literal →
    Flutter.constantDefault? q = none →
      ∃ a, atoms false p.2.descriptor v (propHint c.name p.1) = [a] ∧ a.IsMade .url
  /-- A prop without a default value has a nullable field, unless it is required. -/
  nullable : q.required = false → Flutter.constantDefault? q = none →
    Flutter.parameter q = s!"this.{q.ident}," ∧
      s!"final {q.type}? {q.ident};" ∈ Flutter.fieldLines q

/-- The constructor and the fields of a widget. -/
structure ComponentSpec.WritesDefaults (c : ComponentSpec) (m : ComponentModel) : Prop where
  parameters : (Text.unlines (Flutter.constructorLines m)).toList <:+: (Flutter.source m).toList
  fields : ∀ q ∈ m.props, ∀ line ∈ Flutter.fieldLines q,
    ("\n  " ++ line ++ "\n").toList <:+: (Flutter.source m).toList
  declarations : ∀ d ∈ m.declarations, d.2.toList <:+: (Flutter.source m).toList
  props : List.Forall₂ (c.WritesDefault m) c.props m.props

variable {c : ComponentSpec} {options : TransformOptions} {m : ComponentModel}

theorem PropSpec.optionalType_of_model {p : PropSpec} {t : TypeTable} {component name : String}
    {q : PropModel} (h : (p.model t component name).result = .ok q) :
    q.optionalType = t.optional q.type := by
  rw [model, Mapping.result_bind] at h
  obtain ⟨type, -, h⟩ := bind_eq_ok h
  cases h
  rfl

theorem ComponentSpec.writesDefault_of_model {p : String × PropSpec} {q : PropModel}
    (hc : c.error? = none) (hp : p ∈ c.props)
    (h : (p.2.model Dart.language.table c.name p.1).result = .ok q) : c.WritesDefault m p q := by
  have hmodel := PropSpec.isModel_of_model h
  have hhint := isIdentifier_propHint (issues_of_error? hc) hp
  refine ⟨hmodel.required, Flutter.parameter_of_required, fun text hq htext => ?_,
    fun v literal hv hliteral hnone => ?_,
    fun hq hnone => ⟨Flutter.parameter_of_none hq hnone, ?_⟩⟩
  · obtain ⟨literal, hliteral, -⟩ := Option.bind_eq_some_iff.1 htext
    obtain ⟨v, hv, hwritten⟩ := Option.bind_eq_some_iff.1 (hmodel.default ▸ hliteral)
    refine ⟨Flutter.parameter_of_default hq htext, v, hv,
      Flutter.isConstant_iff hhint hmodel.type hwritten hliteral htext, ?_⟩
    intro hkept a ha hcase hscalar
    exact hcase.declaresCase hscalar (atom_written hmodel.type hwritten ha) (hkept p hp)
  · have hwritten := hmodel.default.symm.trans hliteral
    rw [hv] at hwritten
    exact Flutter.exists_address hhint hmodel.type hwritten hliteral hnone
  · have htext : s!"final {q.type}? {q.ident};" = s!"final {q.optionalType} {q.ident};" := by
      rw [PropSpec.optionalType_of_model h]
      change "final " ++ q.type ++ "? " ++ q.ident ++ ";" =
        "final " ++ (q.type ++ "?") ++ " " ++ q.ident ++ ";"
      have hmark : "? " = "?" ++ " " := rfl
      simp only [hmark, ← String.append_assoc]
    exact htext ▸ Flutter.mem_fieldLines_of_none hq hnone

/-- **A default value in the constructor of a widget is a constant just if its literal is written
without addresses, with colors in lists only, and with cases that are declared.** -/
theorem ComponentSpec.writesDefaults (hc : c.error? = none) (h : c.model .flutter options = .ok m)
    (ts : FlatTokens) : c.WritesDefaults (m.withTokens ts) where
  parameters := Flutter.infix_constructor
  fields _ hq _ := Flutter.infix_field hq
  declarations _ := Flutter.infix_declaration
  props := by
    obtain ⟨props, hprops, rfl⟩ := map_eq_ok h
    have hmodels := (Mapping.mapM_eq_ok hprops).1
    refine ((List.forall₂_and_left _ _).2 ⟨fun p hp => hp, hmodels⟩).imp ?_
    rintro p q ⟨hp, hq⟩
    exact writesDefault_of_model hc hp hq

/-- A swatch with the colors that it shows, and where they are from. -/
def swatch : ComponentSpec where
  name := "Swatch"
  category := .dataDisplay
  accessibility := { role := "img" }
  props := [
    ("colors", {
      descriptor := .array (.custom .color none) none none false
      default := some (.array [.string "#3b82f6"]) }),
    ("source", { descriptor := .custom .url none, default := some (.string "https://a.b") })]

theorem ComponentSpec.writesDefaults_swatch : swatch.error? = none ∧
    ∃ m, swatch.model .flutter {} = .ok m ∧
      m.props.map Flutter.parameter =
        ["this.colors = const [Color(0xFF3B82F6)],", "this.source,"] ∧
      isConstant (m.declarations.declaresCase .dart) "const [Color(0xFF3B82F6)]" = true ∧
      "\n  final Uri? source;\n".toList <:+: (Flutter.source m).toList := by
  have hc : swatch.error? = none := by decide +kernel
  obtain ⟨m, hm, hdata⟩ := exists_of_map_eq (r := swatch.model .flutter {})
    (f := fun m => m.props.map fun q =>
      (q.required, Flutter.constantDefault? q, Flutter.parameter q, q.ident, q.type))
    (b := [(false, some "const [Color(0xFF3B82F6)]", "this.colors = const [Color(0xFF3B82F6)],",
      "colors", "List<Color>"), (false, none, "this.source,", "source", "Uri")]) (by decide +kernel)
  have hwrites := writesDefaults hc hm []
  obtain ⟨colors, qs, hcolors, hrest, hprops⟩ := List.forall₂_cons_left_iff.1 hwrites.props
  obtain ⟨origin, qs', horigin, hnil, rfl⟩ := List.forall₂_cons_left_iff.1 hrest
  obtain rfl := List.forall₂_nil_left_iff.1 hnil
  change m.props = [colors, origin] at hprops
  have hmem : origin ∈ m.props := hprops ▸ .tail _ (.head _)
  simp only [hprops, List.map_cons, List.map_nil, List.cons.injEq, Prod.mk.injEq, and_true] at hdata
  obtain ⟨⟨hoptional, htext, hparameter, -⟩, hoptional', hnone, hparameter', hident, htype⟩ := hdata
  have hparameters : m.props.map Flutter.parameter =
      ["this.colors = const [Color(0xFF3B82F6)],", "this.source,"] := by
    rw [hprops, List.map_cons, hparameter, List.map_singleton, hparameter']
  refine ⟨hc, m, hm, hparameters, ?_, ?_⟩
  · obtain ⟨-, v, hv, hconstant, -⟩ := hcolors.constant _ hoptional htext
    cases hv
    refine hconstant.2 (List.forall_mem_singleton.2 ⟨?_, fun _ => rfl, ?_⟩)
    · rintro ⟨⟨⟩, -⟩
    · rintro ⟨⟨⟩, -⟩
  · obtain ⟨-, hline⟩ := horigin.nullable hoptional' hnone
    have hfield := hwrites.fields origin hmem _ hline
    rwa [htype, hident] at hfield

/-- A badge with a tint and links. -/
def tintedBadge : ComponentSpec where
  name := "Badge"
  category := .dataDisplay
  accessibility := { role := "status" }
  props := [
    ("tint", { descriptor := .custom .color none, default := some (.string "#3b82f6") }),
    ("links", {
      descriptor := .array (.custom .url none) none none false
      default := some (.array [.string "https://a.b"]) })]

/-- A badge with a tint and links passes validation, but neither default value is a constant: the
word is missing before the constructor, and stands before a call that is none. -/
theorem ComponentSpec.writesDefaults_tintedBadge : tintedBadge.error? = none ∧
    ∃ m, tintedBadge.model .flutter {} = .ok m ∧
      m.props.map Flutter.parameter =
        ["this.tint = Color(0xFF3B82F6),", "this.links = const [Uri.parse('https://a.b')],"] ∧
      ∀ text ∈ ["Color(0xFF3B82F6)", "const [Uri.parse('https://a.b')]"],
        isConstant (m.declarations.declaresCase .dart) text = false := by
  obtain ⟨m, hm, hdata⟩ := exists_of_map_eq (r := tintedBadge.model .flutter {})
    (f := fun m => (m.props.map Flutter.parameter, m.declarations))
    (b := (["this.tint = Color(0xFF3B82F6),",
      "this.links = const [Uri.parse('https://a.b')],"], [])) (by decide +kernel)
  obtain ⟨hparameters, hdeclarations⟩ := Prod.mk.inj hdata
  refine ⟨by decide +kernel, m, hm, hparameters, ?_⟩
  rw [hdeclarations]
  decide +kernel

end DesignSystem
