import DesignSystem.Proofs.Entries
import DesignSystem.Proofs.Reading.Spelling
import DesignSystem.Proofs.Reading.TypeExpr
import DesignSystem.Proofs.Text.Split
import DesignSystem.Proofs.Types.Unmappable
import DesignSystem.Types.TypeScript

/-!
# What TypeScript types say

Whether a type is put in parentheses is decided from its text. Reading the text shows that this is
done wherever the structure needs it: what is read is the type that the descriptor describes.

* `IsOperand`: trees that are read as one part of an alternative, whatever follows.
* `shape`: the type that a descriptor describes.
* `Says`: a text is read as a type, and as one part of an alternative unless it will be put in
  parentheses. `Says.group` then puts the parentheses.
* `bars_say`, `alternatives_say`, `function_says`, `array_says`, `object_says`: each form of type,
  from what its parts say.
* `type_read`: the type of a descriptor is read as what the descriptor describes.
-/

set_option autoImplicit false

namespace DesignSystem

open Reading

namespace Reading.TypeScript

/-! ## Operands -/

/-- The trees are read as one part of an alternative, to which a suffix may be added. -/
def IsOperand (ts : List Tree) (t : TypeExpr) : Prop :=
  ∀ before rest, (∀ a, rest.head? ≠ some (.arrow a)) →
    readFrom before (ts ++ rest) = readRest before t rest

variable {ts : List Tree} {t : TypeExpr}

theorem IsOperand.read (h : IsOperand ts t) : readFrom [] ts = some t := by
  have hread := h [] [] (by simp)
  rwa [List.append_nil] at hread

/-- One tree that is read by itself. -/
theorem isOperand_of_readOperand {tree : Tree} (h : readOperand tree = some t) :
    IsOperand [tree] t := by
  intro before rest hrest
  have hbind : readFrom before (tree :: rest) = (readOperand tree).bind (readRest before · rest) := by
    rw [readFrom]
    · rfl
    · rintro params result - rfl rfl
      exact hrest .thick rfl
  rw [List.singleton_append, hbind, h, Option.bind_some]

theorem isOperand_enclosed (h : readFrom [] ts = some t) : IsOperand [.group .round [ts]] t :=
  isOperand_of_readOperand (by rw [readOperand, h])

theorem IsOperand.list (h : IsOperand ts t) : IsOperand (ts ++ [.group .square [[]]]) (.list t) := by
  intro before rest hrest
  rw [List.append_assoc, h _ _ (by simp)]
  rfl

theorem isOperand_object {parts : List (List Tree)} {fields : List (String × TypeExpr)}
    {index : Option (TypeExpr × TypeExpr)} (h : readFields parts = some (fields, index)) :
    IsOperand [.group .curly parts] (.object fields index) :=
  isOperand_of_readOperand (by rw [readOperand, h]; rfl)

theorem readFrom_callback {parts : List (List Tree)} {params : List (Option String × TypeExpr)}
    (hparams : readParams parts = some params) (h : readFrom [] ts = some t) :
    readFrom [] (.group .round parts :: .arrow .thick :: ts) = some (.callback params t) := by
  rw [readFrom, hparams, h]
  rfl

/-- Trees with bars between them. -/
def barred : List (List Tree) → List Tree
  | [] => []
  | [ts] => ts
  | ts :: next :: rest => ts ++ .mark .bar :: barred (next :: rest)

theorem readFrom_barred {trees : List (List Tree)} {types : List TypeExpr}
    (h : List.Forall₂ IsOperand trees types) (hne : types ≠ []) (before : List TypeExpr) :
    readFrom before (barred trees) = some (.anyOf (before ++ types)) := by
  induction h generalizing before with
  | nil => exact absurd rfl hne
  | @cons ts t trees types ht hrest ih =>
    cases hrest with
    | nil =>
      have hread := ht before [] (by simp)
      rw [List.append_nil] at hread
      rw [barred, hread, readRest]
    | @cons us u trees types hu hrest =>
      rw [barred, ht before _ (by simp), readRest, ih (by simp), List.append_assoc]
      rfl

/-! ## Named parts -/

/-- The trees are a name with a type behind it. -/
def IsNamed (part : List Tree) (p : String × TypeExpr) : Prop :=
  ∃ ts, part = .word p.1 :: .mark .colon :: ts ∧ readFrom [] ts = some p.2

variable {parts : List (List Tree)} {named : List (String × TypeExpr)}

theorem readParams_of_named (h : List.Forall₂ IsNamed parts named) :
    readParams (partsOf parts) = some (named.map fun p => (some p.1, p.2)) := by
  have hparts : readParams parts = some (named.map fun p => (some p.1, p.2)) := by
    induction h with
    | nil => rfl
    | cons hp _ ih =>
      obtain ⟨ts, rfl, ht⟩ := hp
      rw [readParams, ht, ih]
      rfl
  cases h with
  | nil => rfl
  | cons => exact hparts

theorem readFields_of_named (h : List.Forall₂ IsNamed parts named) {last : List (List Tree)}
    {index : Option (TypeExpr × TypeExpr)} (hlast : readFields last = some ([], index)) :
    readFields (parts ++ last) = some (named, index) := by
  induction h with
  | nil => exact hlast
  | cons hp _ ih =>
    obtain ⟨ts, rfl, ht⟩ := hp
    rw [List.cons_append, readFields, ht, ih]
    rfl

theorem IsOperand.member (h : IsOperand ts t) (name : String) :
    IsOperand (ts ++ [.mark .dot, .word name]) (.member t name) := by
  intro before rest hrest
  rw [List.append_assoc, h _ _ (by simp)]
  rfl

theorem IsOperand.generic (h : IsOperand ts t) (args : List (List Tree)) {types : List TypeExpr}
    (hargs : readArgs args = some types) :
    IsOperand (ts ++ [.group .angle args]) (.generic t types) := by
  intro before rest hrest
  rw [List.append_assoc, h _ _ (by simp), List.singleton_append, readRest, hargs]
  rfl

end Reading.TypeScript

/-- A value that is neither a list nor an object. -/
def Json.Value.IsScalar : Json.Value → Prop
  | .array _ | .object _ => False
  | _ => True

namespace TypeDescriptor

/-- The names of a descriptor's own fields and parameters are identifiers, and its own enumerated
values are scalars. -/
def OwnLegible : TypeDescriptor → Prop
  | primitive _ (some values) => ∀ v ∈ values, v.IsScalar
  | signed .function params _ => ∀ p ∈ params, isWord p.1
  | object properties _ => ∀ p ∈ properties, isWord p.1
  | _ => True

/-- All names of fields and parameters in a descriptor are identifiers, and all enumerated values
are scalars. -/
def IsLegible (d : TypeDescriptor) : Prop := ∀ inner, Position true d inner → inner.OwnLegible

end TypeDescriptor

namespace TypeScript

open Reading.TypeScript

/-! ## The type that a descriptor describes -/

/-- The type of one scalar. Null has no literal here, and lists and objects are no scalars. -/
def literalShape : Json.Value → TypeExpr
  | .string s => .text s
  | .number n => .number n.text
  | .bool b => .name (if b then "true" else "false")
  | .null => .name "null"
  | .array _ | .object _ => .name "object"

/-- The types of content, elements, references, and so on. -/
def Framework.shape (f : Framework) : ComplexType → TypeExpr
  | .function => .callback [] (.name "void")
  | .node =>
    match f with
    | react => .member (.name "React") "ReactNode"
    | vue => .name "VNode"
    | angular => .generic (.name "TemplateRef") [.name "unknown"]
    | svelte => .name "Snippet"
    | plain => .union [.name "Node", .name "string"]
  | .element =>
    match f with
    | react => .member (.name "React") "ReactElement"
    | vue => .name "VNode"
    | angular => .generic (.name "TemplateRef") [.name "unknown"]
    | svelte => .name "Snippet"
    | plain => .name "HTMLElement"
  | .ref =>
    match f with
    | react => .generic (.member (.name "React") "Ref") [.name "HTMLElement"]
    | vue => .generic (.name "Ref") [.union [.name "HTMLElement", .name "null"]]
    | angular => .generic (.name "ElementRef") [.name "HTMLElement"]
    | svelte => .union [.name "HTMLElement", .name "undefined"]
    | plain => .union [.name "HTMLElement", .name "null"]
  | .date => .name "Date"
  | .file => .name "File"

/-- The type of alternatives: that of one if the texts of all are the same. -/
def alternativesShape (texts : List String) (members : List TypeExpr) : TypeExpr :=
  match commonMember? texts, members with
  | some _, first :: _ => first
  | _, members => .union members

/-- The type of an object. Without any fields it is the one without any values. -/
def objectShape (fields : List (String × TypeExpr)) (strict : Bool) : TypeExpr :=
  if strict then
    if fields.isEmpty then .generic (.name "Record") [.name "string", .name "never"]
    else .object fields none
  else .object fields (some (.name "string", .name "unknown"))

mutual

/-- The type that a descriptor describes. -/
def shape (f : Framework) : TypeDescriptor → TypeExpr
  | .primitive kind values =>
    match values with
    | some values => .anyOf (values.map literalShape)
    | none => .name kind.name
  | .custom kind values =>
    match TypeDescriptor.enumerated? (.custom kind values) with
    | some labels => .anyOf (labels.map .text)
    | none => .name "string"
  | .complex kind => f.shape kind
  | .signed kind params returns =>
    match kind with
    | .function =>
      .callback ((shapeNamed f params).map fun p => (some p.1, p.2)) (shapeResult f returns)
    | kind => f.shape kind
  | .union types => alternativesShape ((all f types).toOption.getD []) (shapeAll f types)
  | .array items _ _ _ => .list (shape f items)
  | .object properties strict => objectShape (shapeNamed f properties) strict

def shapeAll (f : Framework) : List TypeDescriptor → List TypeExpr
  | [] => []
  | d :: ds => shape f d :: shapeAll f ds

def shapeNamed (f : Framework) : List (String × TypeDescriptor) → List (String × TypeExpr)
  | [] => []
  | (name, d) :: more => (name, shape f d) :: shapeNamed f more

def shapeResult (f : Framework) : Option TypeDescriptor → TypeExpr
  | none => .name "void"
  | some d => shape f d

end

/-! ## Texts that say a type -/

/-- A text is read as a type, and as one part of an alternative unless it will be put in parentheses
for that. -/
def Says (text : String) (t : TypeExpr) : Prop :=
  ∃ ts, Spells text ts ∧ readFrom [] ts = some t ∧ (group text = "(" ++ text ++ ")" ∨ IsOperand ts t)

variable {text : String} {t : TypeExpr} {ts : List Tree} {f : Framework}

theorem Says.read (h : Says text t) : Reading.TypeScript.read text = some t := by
  obtain ⟨ts, hspells, hread, -⟩ := h
  rw [Reading.TypeScript.read, trees?_eq_iff.2 hspells, Option.bind_eq_bind, Option.bind_some, hread]

theorem says_of_isOperand (hspells : Spells text ts) (h : IsOperand ts t) : Says text t :=
  ⟨ts, hspells, h.read, .inr h⟩

theorem group_eq_of_mark {mark : String} (hmark : mark ∈ ["=>", " | "])
    (h : mark.toList <:+: text.toList) : group text = "(" ++ text ++ ")" := by
  have hcontains := (Text.contains_iff mark text).2 h
  rw [group, if_pos]
  rw [Bool.or_eq_true]
  rcases List.mem_cons.1 hmark with rfl | hmark
  · exact .inl hcontains
  · rw [List.mem_singleton.1 hmark] at hcontains
    exact .inr hcontains

/-- In parentheses where it needs them, a type is one part of an alternative. -/
theorem Says.group (h : Says text t) : ∃ ts, Spells (group text) ts ∧ IsOperand ts t := by
  obtain ⟨ts, hspells, hread, hgroup⟩ := h
  by_cases hloose : TypeScript.group text = "(" ++ text ++ ")"
  · exact ⟨_, hloose ▸ Spells.enclosed hspells, isOperand_enclosed hread⟩
  · refine ⟨ts, ?_, hgroup.resolve_left hloose⟩
    rw [TypeScript.group] at hloose ⊢
    split_ifs at hloose ⊢
    · exact absurd rfl hloose
    · exact hspells

/-- A text whose trees are known. -/
theorem says_of_trees? (h : IsOperand ts t) (htrees : trees? text = some ts) : Says text t :=
  says_of_isOperand (spells_of_trees? htrees) h

theorem says_of_group (ts : List Tree) (htrees : trees? text = some ts)
    (hread : readFrom [] ts = some t) (hgroup : group text = "(" ++ text ++ ")") : Says text t :=
  ⟨ts, spells_of_trees? htrees, hread, .inl hgroup⟩

/-! ## What is written -/

theorem joins_bar : Joins " | " [.mark .bar] := ⟨rfl, fun _ _ => rfl⟩

theorem joins_arrow : Joins " => " [.arrow .thick] := ⟨rfl, fun _ _ => rfl⟩

theorem isOperand_word (name : String) : IsOperand [.word name] (.name name) :=
  isOperand_of_readOperand (by rw [readOperand])

theorem complex_says (f : Framework) (kind : ComplexType) : Says (f.complex kind) (f.shape kind) := by
  cases kind with
  | function =>
    change Says "() => void" (.callback [] (.name "void"))
    exact says_of_group [.group .round [[]], .arrow .thick, .word "void"] rfl rfl rfl
  | node =>
    cases f with
    | react => exact says_of_trees? ((isOperand_word "React").member "ReactNode") rfl
    | vue => exact says_of_trees? (isOperand_word "VNode") rfl
    | angular =>
      exact says_of_trees? ((isOperand_word "TemplateRef").generic [[.word "unknown"]] rfl) rfl
    | svelte => exact says_of_trees? (isOperand_word "Snippet") rfl
    | plain => exact says_of_group [.word "Node", .mark .bar, .word "string"] rfl rfl rfl
  | element =>
    cases f with
    | react => exact says_of_trees? ((isOperand_word "React").member "ReactElement") rfl
    | vue => exact says_of_trees? (isOperand_word "VNode") rfl
    | angular =>
      exact says_of_trees? ((isOperand_word "TemplateRef").generic [[.word "unknown"]] rfl) rfl
    | svelte => exact says_of_trees? (isOperand_word "Snippet") rfl
    | plain => exact says_of_trees? (isOperand_word "HTMLElement") rfl
  | ref =>
    cases f with
    | react =>
      exact says_of_trees?
        (((isOperand_word "React").member "Ref").generic [[.word "HTMLElement"]] rfl) rfl
    | vue =>
      exact says_of_trees?
        ((isOperand_word "Ref").generic [[.word "HTMLElement", .mark .bar, .word "null"]] rfl) rfl
    | angular =>
      exact says_of_trees? ((isOperand_word "ElementRef").generic [[.word "HTMLElement"]] rfl) rfl
    | svelte =>
      exact says_of_group [.word "HTMLElement", .mark .bar, .word "undefined"] rfl rfl rfl
    | plain => exact says_of_group [.word "HTMLElement", .mark .bar, .word "null"] rfl rfl rfl
  | date =>
    change Says "Date" (.name "Date")
    exact says_of_trees? (isOperand_word "Date") rfl
  | file =>
    change Says "File" (.name "File")
    exact says_of_trees? (isOperand_word "File") rfl

theorem spells_bars {texts : List String} {trees : List (List Tree)}
    (h : List.Forall₂ Spells texts trees) (hne : texts ≠ []) :
    Spells (Text.join " | " texts) (barred trees) := by
  induction h with
  | nil => exact absurd rfl hne
  | @cons text ts texts trees htext hrest ih =>
    cases hrest with
    | nil => exact htext
    | cons =>
      rw [Text.join_cons_cons, barred, List.append_cons]
      exact htext.joined joins_bar (ih (by simp))

/-- Alternatives with bars between them. -/
theorem bars_say {texts : List String} {trees : List (List Tree)} {types : List TypeExpr}
    (h : List.Forall₂ Spells texts trees) (htypes : List.Forall₂ IsOperand trees types)
    (hne : texts ≠ []) : Says (Text.join " | " texts) (.anyOf types) := by
  have hread : readFrom [] (barred trees) = some (.anyOf types) := by
    refine readFrom_barred htypes ?_ []
    rintro rfl
    cases htypes
    cases h
    exact hne rfl
  refine ⟨_, spells_bars h hne, hread, ?_⟩
  cases h with
  | nil => exact absurd rfl hne
  | @cons text ts texts trees htext hrest =>
    cases hrest with
    | nil =>
      obtain _ | ⟨ht, _ | _⟩ := htypes
      exact .inr ht
    | @cons next us texts trees =>
      refine .inl (group_eq_of_mark (List.mem_cons_of_mem _ List.mem_cons_self) ?_)
      rw [Text.join_cons_cons, String.toList_append, String.toList_append]
      exact (List.suffix_append _ _).isInfix.trans (List.prefix_append _ _).isInfix

theorem literal_isOperand {v : Json.Value} (hv : v.IsScalar) (h : literal? v = some text) :
    ∃ ts, Spells text ts ∧ IsOperand ts (literalShape v) := by
  cases v with
  | null => cases h
  | string s =>
    cases h
    exact ⟨_, .quotedSingle s, isOperand_of_readOperand (by rw [readOperand, literalShape])⟩
  | number n =>
    cases h
    exact ⟨_, .number (isNumeral_text n), isOperand_of_readOperand (by rw [readOperand, literalShape])⟩
  | bool b =>
    cases h
    cases b with
    | false => exact ⟨_, spells_of_trees? rfl, isOperand_word "false"⟩
    | true => exact ⟨_, spells_of_trees? rfl, isOperand_word "true"⟩
  | array items => exact hv.elim
  | object fields => exact hv.elim

theorem literalUnion_says {d : TypeDescriptor} {values : List Json.Value}
    (hvalues : ∀ v ∈ values, v.IsScalar) (hne : values ≠ []) (h : literalUnion d values = .ok text) :
    Says text (.anyOf (values.map literalShape)) := by
  unfold literalUnion at h
  split at h
  · next literals hliterals =>
    cases h
    have hall : ∃ trees, List.Forall₂ Spells literals trees ∧
        List.Forall₂ IsOperand trees (values.map literalShape) := by
      clear hne
      induction values generalizing literals with
      | nil =>
        cases hliterals
        exact ⟨[], .nil, .nil⟩
      | cons v values ih =>
        rw [List.mapM_cons] at hliterals
        obtain ⟨literal, hv, hliterals⟩ := Option.bind_eq_some_iff.1 hliterals
        obtain ⟨rest, hrest, hliterals⟩ := Option.bind_eq_some_iff.1 hliterals
        cases hliterals
        obtain ⟨ts, hspells, hoperand⟩ := literal_isOperand (hvalues v List.mem_cons_self) hv
        obtain ⟨trees, htrees, hshapes⟩ := ih (fun w hw => hvalues w (.tail _ hw)) rest hrest
        exact ⟨ts :: trees, .cons hspells htrees, .cons hoperand hshapes⟩
    obtain ⟨trees, htrees, hshapes⟩ := hall
    refine bars_say htrees hshapes ?_
    rintro rfl
    cases htrees
    exact hne (List.map_eq_nil_iff.1 (List.forall₂_nil_left_iff.1 hshapes))
  · cases h

/-! ## Parts of a descriptor -/

/-- Every type that is written for a descriptor says what the descriptor describes. -/
def IsSaid (f : Framework) (d : TypeDescriptor) : Prop :=
  ∀ text, type f d = .ok text → Says text (shape f d)

theorem all_say {types : List TypeDescriptor} (hd : ∀ d ∈ types, IsSaid f d) {texts : List String}
    (h : all f types = .ok texts) : List.Forall₂ Says texts (shapeAll f types) := by
  induction types generalizing texts with
  | nil =>
    cases h
    exact .nil
  | cons d types ih =>
    obtain ⟨first, hfirst, h⟩ := bind_eq_ok h
    obtain ⟨rest, hrest, h⟩ := bind_eq_ok h
    cases h
    exact .cons (hd d List.mem_cons_self first hfirst) (ih (fun e he => hd e (.tail _ he)) hrest)

theorem named_say {params : List (String × TypeDescriptor)} (hd : ∀ p ∈ params, IsSaid f p.2)
    (hnames : ∀ p ∈ params, isWord p.1) {texts : List String} (h : named f params = .ok texts) :
    ∃ parts, List.Forall₂ Spells texts parts ∧ List.Forall₂ IsNamed parts (shapeNamed f params) := by
  induction params generalizing texts with
  | nil =>
    cases h
    exact ⟨[], .nil, .nil⟩
  | cons p params ih =>
    obtain ⟨first, hfirst, h⟩ := bind_eq_ok h
    obtain ⟨rest, hrest, h⟩ := bind_eq_ok h
    cases h
    obtain ⟨ts, hspells, hread, -⟩ := hd p List.mem_cons_self first hfirst
    obtain ⟨parts, hparts, hnamed⟩ :=
      ih (fun q hq => hd q (.tail _ hq)) (fun q hq => hnames q (.tail _ hq)) hrest
    have hname : Spells p.1 [.word p.1] := .word (hnames p List.mem_cons_self)
    exact ⟨_, .cons (hname.joined joins_colon hspells) hparts, .cons ⟨ts, rfl, hread⟩ hnamed⟩

theorem result_says {returns : Option TypeDescriptor} (hd : ∀ d, returns = some d → IsSaid f d)
    (h : result f returns = .ok text) : Says text (shapeResult f returns) := by
  cases returns with
  | none =>
    cases h
    exact says_of_trees? (isOperand_word "void") rfl
  | some d => exact hd d rfl text h

theorem contains_enclosed {mark : String} (h : Text.contains mark text) :
    Text.contains mark ("(" ++ text ++ ")") := by
  rw [Text.contains_iff] at h ⊢
  rw [String.toList_append, String.toList_append]
  exact (h.trans (List.suffix_append _ _).isInfix).trans (List.prefix_append _ _).isInfix

/-- Parentheses do not make different texts the same. -/
theorem group_injective : Function.Injective group := by
  -- a text in parentheses would itself be put in parentheses
  have hne : ∀ {a b : String}, (Text.contains "=>" a || Text.contains " | " a) = true →
      ¬ (Text.contains "=>" b || Text.contains " | " b) = true → "(" ++ a ++ ")" ≠ b := by
    rintro a b ha hb rfl
    refine hb ?_
    rw [Bool.or_eq_true] at ha ⊢
    exact ha.imp contains_enclosed contains_enclosed
  intro a b h
  unfold group at h
  split_ifs at h with ha hb hb
  · have hlist := congrArg String.toList h
    rw [String.toList_append, String.toList_append, String.toList_append, String.toList_append,
      List.append_left_inj, List.append_right_inj] at hlist
    exact String.toList_injective hlist
  · exact absurd h (hne ha hb)
  · exact absurd h.symm (hne hb ha)
  · exact h

theorem commonMember?_map {g : String → String} (hg : Function.Injective g) (texts : List String) :
    commonMember? (texts.map g) = (commonMember? texts).map g := by
  cases texts with
  | nil => rfl
  | cons first rest =>
    simp only [commonMember?, List.map_cons, List.all_map, Function.comp_def, hg.eq_iff]
    split_ifs <;> rfl

/-- A callback with its arrow outside of brackets. -/
theorem function_spells {params : List (String × TypeDescriptor)} {returns : Option TypeDescriptor}
    (hd : ∀ p ∈ params, IsSaid f p.2) (hnames : ∀ p ∈ params, isWord p.1)
    (hr : ∀ d, returns = some d → IsSaid f d)
    (h : type f (.signed .function params returns) = .ok text) :
    ∃ parts ts, Spells text (.group .round parts :: .arrow .thick :: ts) ∧
      readFrom [] (.group .round parts :: .arrow .thick :: ts) =
        some (shape f (.signed .function params returns)) := by
  obtain ⟨texts, htexts, h⟩ := bind_eq_ok h
  obtain ⟨returned, hreturned, h⟩ := bind_eq_ok h
  cases h
  obtain ⟨parts, hparts, hnamed⟩ := named_say hd hnames htexts
  obtain ⟨ts, hspells, hread, -⟩ := result_says hr hreturned
  have htext : "(" ++ Text.join ", " texts ++ ") => " ++ returned =
      "(" ++ Text.join ", " texts ++ ")" ++ " => " ++ returned := by
    simp only [String.append_assoc]
    rfl
  exact ⟨_, ts, htext ▸ (Spells.round hparts).joined joins_arrow hspells,
    readFrom_callback (readParams_of_named hnamed) hread⟩

theorem function_says {params : List (String × TypeDescriptor)} {returns : Option TypeDescriptor}
    (hd : ∀ p ∈ params, IsSaid f p.2) (hnames : ∀ p ∈ params, isWord p.1)
    (hr : ∀ d, returns = some d → IsSaid f d) : IsSaid f (.signed .function params returns) := by
  intro text h
  obtain ⟨parts, ts, hspells, hread⟩ := function_spells hd hnames hr h
  have harrow : Arrow.thick.chars <:+: text.toList :=
    mem_arrow (trees?_eq_iff.2 hspells) (List.mem_cons_of_mem _ List.mem_cons_self)
  exact ⟨_, hspells, hread, .inl (group_eq_of_mark List.mem_cons_self harrow)⟩

theorem array_says {items : TypeDescriptor} (hd : IsSaid f items) (low high : Option Nat)
    (unique : Bool) : IsSaid f (.array items low high unique) := by
  intro text h
  obtain ⟨inner, hinner, h⟩ := bind_eq_ok h
  cases h
  obtain ⟨ts, hspells, hoperand⟩ := (hd inner hinner).group
  have hbrackets : Spells "[]" [.group .square [[]]] := spells_of_trees? rfl
  exact says_of_isOperand (hspells.append hbrackets rfl) hoperand.list

theorem object_says {properties : List (String × TypeDescriptor)} (hd : ∀ p ∈ properties, IsSaid f p.2)
    (hnames : ∀ p ∈ properties, isWord p.1) (strict : Bool) : IsSaid f (.object properties strict) := by
  intro text h
  obtain ⟨texts, htexts, h⟩ := bind_eq_ok h
  cases h
  obtain ⟨parts, hparts, hnamed⟩ := named_say hd hnames htexts
  cases strict with
  | true =>
    cases hparts with
    | nil =>
      cases properties with
      | nil =>
        exact says_of_trees? ((isOperand_word "Record").generic [[.word "string"], [.word "never"]] rfl)
          rfl
      | cons => cases hnamed
    | @cons first ts texts parts hfirst hparts =>
      have hread : readFields (ts :: parts ++ []) = some (shapeNamed f properties, none) :=
        readFields_of_named hnamed rfl
      rw [List.append_nil] at hread
      have hshape : ∀ fields, List.Forall₂ IsNamed (ts :: parts) fields →
          objectShape fields true = .object fields none := by
        rintro _ (_ | _)
        rfl
      rw [shape, hshape _ hnamed, object, if_pos rfl, List.append_nil, if_neg (by simp)]
      exact says_of_isOperand (.curly (.cons hfirst hparts)) (isOperand_object hread)
  | false =>
    have hindex : Spells "[key: string]: unknown" [.group .square [[.word "key", .mark .colon,
      .word "string"]], .mark .colon, .word "unknown"] := spells_of_trees? rfl
    have hspells := Spells.curly (List.rel_append hparts (.cons hindex .nil))
    rw [partsOf_of_ne_nil (by simp)] at hspells
    have hall : (texts ++ ["[key: string]: unknown"]).isEmpty = false := by simp
    rw [object, if_neg Bool.false_ne_true, hall, if_neg Bool.false_ne_true]
    exact says_of_isOperand hspells (isOperand_object (readFields_of_named hnamed rfl))

/-- Members, in parentheses where they need them. -/
theorem grouped_spell {texts : List String} {shapes : List TypeExpr}
    (h : List.Forall₂ Says texts shapes) : ∃ trees, List.Forall₂ Spells (texts.map group) trees ∧
      List.Forall₂ IsOperand trees shapes := by
  induction h with
  | nil => exact ⟨[], .nil, .nil⟩
  | cons hfirst _ ih =>
    obtain ⟨ts, hspells, hoperand⟩ := hfirst.group
    obtain ⟨trees, htrees, hoperands⟩ := ih
    exact ⟨ts :: trees, .cons hspells htrees, .cons hoperand hoperands⟩

theorem alternatives_say {texts : List String} {shapes : List TypeExpr}
    (h : List.Forall₂ Says texts shapes) (hne : texts ≠ []) :
    Says (union (texts.map group)) (alternativesShape texts shapes) := by
  rw [union, commonMember?_map group_injective]
  cases h with
  | nil => exact absurd rfl hne
  | @cons text t texts shapes hfirst hrest =>
    cases hcommon : commonMember? (text :: texts) with
    | some single =>
      obtain rfl : text = single := by
        unfold commonMember? at hcommon
        dsimp only at hcommon
        split_ifs at hcommon
        exact Option.some.inj hcommon
      obtain ⟨ts, hspells, hoperand⟩ := hfirst.group
      simp only [alternativesShape, hcommon]
      exact says_of_isOperand hspells hoperand
    | none =>
      obtain ⟨trees, htrees, hoperands⟩ := grouped_spell (.cons hfirst hrest)
      have hany : TypeExpr.anyOf (t :: shapes) = .union (t :: shapes) := by
        cases hrest with
        | nil => cases hcommon
        | cons => rfl
      simp only [alternativesShape, hcommon]
      exact hany ▸ bars_say htrees hoperands (by simp)

theorem union_says {types : List TypeDescriptor} (hd : ∀ d ∈ types, IsSaid f d) :
    IsSaid f (.union types) := by
  intro text h
  rw [type] at h
  split_ifs at h with hempty
  obtain ⟨texts, htexts, h⟩ := bind_eq_ok h
  cases h
  have hshape : shape f (.union types) = alternativesShape texts (shapeAll f types) := by
    rw [shape, htexts]
    rfl
  have hall := all_say hd htexts
  rw [hshape]
  refine alternatives_say hall ?_
  rintro rfl
  cases types with
  | nil => exact hempty rfl
  | cons => cases hall

theorem primitive_says {kind : PrimitiveType} {values : Option (List Json.Value)}
    (hvalues : ∀ vs, values = some vs → ∀ v ∈ vs, v.IsScalar) : IsSaid f (.primitive kind values) := by
  intro text h
  rw [type] at h
  match values with
  | none =>
    cases h
    rw [shape]
    cases kind with
    | string => exact says_of_trees? (isOperand_word "string") rfl
    | number => exact says_of_trees? (isOperand_word "number") rfl
    | boolean => exact says_of_trees? (isOperand_word "boolean") rfl
  | some [] => cases h
  | some (v :: vs) =>
    rw [shape]
    exact literalUnion_says (hvalues _ rfl) (by simp) h

theorem custom_says (kind : CustomType) (values : Option (List String)) :
    IsSaid f (.custom kind values) := by
  intro text h
  rw [type, enumerationValues] at h
  rw [shape]
  match hlabels : TypeDescriptor.enumerated? (.custom kind values) with
  | some [] =>
    rw [hlabels] at h
    cases h
  | some (label :: labels) =>
    rw [hlabels] at h
    have hsays := literalUnion_says (by simp [Json.Value.IsScalar]) (by simp) h
    rwa [List.map_map] at hsays
  | none =>
    rw [hlabels] at h
    dsimp only at h
    split_ifs at h
    cases h
    exact says_of_trees? (isOperand_word "string") rfl

/-- What a descriptor describes, parts of which are described by the descriptors inside it, is what
its type says. -/
theorem isSaid {d : TypeDescriptor} (hd : d.IsLegible) : IsSaid f d := by
  induction d using TypeDescriptor.induct with
  | primitive kind values =>
    refine primitive_says fun vs hvs => ?_
    subst hvs
    exact hd _ (.self _)
  | complex kind =>
    intro text h
    cases h
    exact complex_says f kind
  | signed kind params returns hparams hreturns =>
    cases kind with
    | function =>
      refine function_says (fun p hp => hparams p hp fun inner hi => hd inner (.param hp hi))
        (hd _ (.self _)) fun d hr => hreturns d hr fun inner hi => ?_
      subst hr
      exact hd inner (.result hi)
    | node | element | ref | date | file =>
      intro text h
      cases h
      exact complex_says f _
  | custom kind values => exact custom_says kind values
  | union types ih => exact union_says fun d hmem => ih d hmem fun inner hi => hd inner (.member hmem hi)
  | array items low high unique ih => exact array_says (ih fun inner hi => hd inner (.item hi)) _ _ _
  | object properties strict ih =>
    exact object_says (fun p hp => ih p hp fun inner hi => hd inner (.field (.inr rfl) hp hi))
      (hd _ (.self _)) strict

/-- A type that is read with TypeScript's precedence is the one that the descriptor describes. -/
theorem type_read {f : Framework} {d : TypeDescriptor} {text : String} (h : type f d = .ok text)
    (hd : d.IsLegible) : Reading.TypeScript.read text = some (shape f d) :=
  (isSaid hd text h).read

/-- Callbacks that take an event, or the text of an arrow. -/
def listeners : TypeDescriptor :=
  .array (.union [.signed .function [("event", .object [("id", .primitive .number none)] false)] none,
    .primitive .string (some [.string "a => b"])]) none none false

theorem listeners_isLegible : listeners.IsLegible := by
  have hevent : ∀ p ∈ [("event", TypeDescriptor.object [("id", .primitive .number none)] false)],
      isWord p.1 := List.forall_mem_singleton.2 rfl
  have hid : ∀ p ∈ [("id", TypeDescriptor.primitive .number none)], isWord p.1 :=
    List.forall_mem_singleton.2 rfl
  rintro inner (_ | _ | hp)
  · trivial
  cases hp with
  | self => trivial
  | member hmem hp =>
    rcases List.mem_pair.1 hmem with rfl | rfl
    · cases hp with
      | self => exact hevent
      | param hmem hp =>
        cases List.mem_singleton.1 hmem
        cases hp with
        | self => exact hid
        | field _ hmem hp =>
          cases List.mem_singleton.1 hmem
          cases hp
          trivial
    · cases hp
      exact List.forall_mem_singleton.2 trivial

theorem type_read_listeners : Reading.TypeScript.read
    "(((event: \x7b id: number; [key: string]: unknown \x7d) => void) | ('a => b'))[]" =
      some (.list (.union [.callback [(some "event",
        .object [("id", .name "number")] (some (.name "string", .name "unknown")))] (.name "void"),
        .text "a => b"])) :=
  type_read (f := .react) (d := listeners) rfl listeners_isLegible

end TypeScript

end DesignSystem
