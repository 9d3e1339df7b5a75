import DesignSystem.Proofs.Descriptor.Sample

/-!
# What the issues of a descriptor are about

The check goes through all descriptors in a descriptor, and looks at each one by itself. It does not
look at the names of parameters.

* `TypeDescriptor.Contains`: a descriptor stands in another one, at any depth.
* `mem_issues_iff`: the issues of a descriptor are those of the descriptors in it.
* `renameParams`: a descriptor with other names for the parameters of its signatures.
* `issues_renameParams`, `fits_renameParams`, `summary_renameParams`: this changes no issue, no fit
  and no summary.
-/

set_option autoImplicit false

namespace DesignSystem.TypeDescriptor

/-! ## Issues -/

/-- A descriptor stands in another one, at any depth. -/
inductive Contains : TypeDescriptor → TypeDescriptor → Prop
  | self (d : TypeDescriptor) : Contains d d
  | child {d child inner : TypeDescriptor} (h : child ∈ d.children) (hinner : Contains child inner) :
      Contains d inner

theorem Position.contains {script : Bool} {d inner : TypeDescriptor} (h : Position script d inner) :
    d.Contains inner := by
  induction h with
  | self d => exact .self d
  | member hmem _ ih => exact .child hmem ih
  | item _ ih => exact .child List.mem_cons_self ih
  | param hmem _ ih => exact .child (List.mem_append_left _ (List.mem_map_of_mem hmem)) ih
  | result _ ih => exact .child (List.mem_append_right _ List.mem_cons_self) ih
  | field _ hmem _ ih => exact .child (List.mem_map_of_mem hmem) ih

/-- The issues of a descriptor by itself. -/
def ownIssues : TypeDescriptor → List DescriptorIssue
  | primitive _ (some []) => [.emptyEnumeration]
  | custom _ (some []) => [.emptyValues]
  | union [] => [.emptyUnion]
  | array _ low high _ => if boundsReversed low high then [.boundsReversed] else []
  | object properties _ =>
    (properties.filter fun p => !isIdentifier p.1).map fun p => .fieldName p.1
  | _ => []

variable {d inner : TypeDescriptor} {issue : DescriptorIssue}

theorem issuesOfAll_eq (types : List TypeDescriptor) : issuesOfAll types = types.flatMap issues := by
  induction types with
  | nil => rfl
  | cons d ds ih => rw [issuesOfAll, ih, List.flatMap_cons]

theorem issuesOfNamed_eq (params : List (String × TypeDescriptor)) :
    issuesOfNamed params = (params.map (·.2)).flatMap issues := by
  induction params with
  | nil => rfl
  | cons p ps ih => rw [issuesOfNamed, ih, List.map_cons, List.flatMap_cons]

theorem mem_issuesOfFields {properties : List (String × TypeDescriptor)} (strict : Bool) :
    issue ∈ issuesOfFields properties ↔ issue ∈ (object properties strict).ownIssues ∨
      ∃ child ∈ properties.map (·.2), issue ∈ child.issues := by
  induction properties with
  | nil => simp [issuesOfFields, ownIssues]
  | cons p ps ih =>
    have hown : issue ∈ (object (p :: ps) strict).ownIssues ↔
        issue ∈ (if isIdentifier p.1 then [] else [.fieldName p.1]) ∨
          issue ∈ (object ps strict).ownIssues := by
      simp only [ownIssues, List.filter_cons]
      cases isIdentifier p.1 <;> simp
    rw [issuesOfFields, List.mem_append, List.mem_append, ih, List.map_cons,
      List.exists_mem_cons_iff, hown]
    tauto

/-- An issue is one of a descriptor by itself, or of one that stands in it. -/
theorem mem_issues_iff_children :
    issue ∈ d.issues ↔ issue ∈ d.ownIssues ∨ ∃ child ∈ d.children, issue ∈ child.issues := by
  cases d with
  | primitive kind values =>
    rcases values with _ | _ | ⟨v, vs⟩ <;> simp [issues, ownIssues, children]
  | complex kind => simp [issues, ownIssues, children]
  | signed kind params returns =>
    rw [issues, issuesOfNamed_eq, children, ← List.mem_flatMap, List.flatMap_append]
    cases returns <;> simp [ownIssues, issuesOfReturn]
  | custom kind values =>
    rcases values with _ | _ | ⟨v, vs⟩ <;> simp [issues, ownIssues, children]
  | union types =>
    rw [issues, issuesOfAll_eq, List.mem_append, List.mem_flatMap]
    cases types <;> simp [ownIssues, children]
  | array items low high unique => simp [issues, ownIssues, children]
  | object properties strict => exact mem_issuesOfFields strict

theorem children_induct {motive : TypeDescriptor → Prop}
    (h : ∀ d, (∀ child ∈ d.children, motive child) → motive d) : ∀ d, motive d := by
  intro d
  induction d using TypeDescriptor.induct with
  | primitive | complex | custom => exact h _ (List.forall_mem_nil _)
  | signed kind params returns hparams hreturns =>
    refine h _ (List.forall_mem_append.2 ⟨List.forall_mem_map.2 hparams, fun d hd => ?_⟩)
    exact hreturns d (Option.mem_toList.1 hd)
  | union types ih => exact h _ ih
  | array items low high unique ih => exact h _ (List.forall_mem_singleton.2 ih)
  | object properties strict ih => exact h _ (List.forall_mem_map.2 ih)

/-- The issues of a descriptor are those of the descriptors in it, each one by itself. -/
theorem mem_issues_iff :
    issue ∈ d.issues ↔ ∃ inner, d.Contains inner ∧ issue ∈ inner.ownIssues := by
  constructor
  · induction d using children_induct with
    | h d ih =>
      intro hissue
      rcases mem_issues_iff_children.1 hissue with hown | ⟨child, hchild, hissue⟩
      · exact ⟨d, .self d, hown⟩
      · obtain ⟨inner, hinner, hown⟩ := ih child hchild hissue
        exact ⟨inner, .child hchild hinner, hown⟩
  · rintro ⟨inner, hinner, hissue⟩
    induction hinner with
    | self d => exact mem_issues_iff_children.2 (.inl hissue)
    | child hmem _ ih => exact mem_issues_iff_children.2 (.inr ⟨_, hmem, ih hissue⟩)

/-! ## Names of fields and parameters -/

/-- The names of an object's fields. -/
def fieldNames : TypeDescriptor → List String
  | object properties _ => properties.map (·.1)
  | _ => []

/-- The names of a callback's parameters. -/
def paramNames : TypeDescriptor → List String
  | signed .function params _ => params.map (·.1)
  | _ => []

/-- In a descriptor without issues the fields of all objects have identifiers for names. -/
theorem isIdentifier_of_mem_fieldNames (h : d.issues = []) (hinner : d.Contains inner) :
    ∀ name ∈ inner.fieldNames, isIdentifier name := by
  intro name hname
  cases inner with
  | object properties strict =>
    by_contra hnot
    obtain ⟨p, hp, rfl⟩ := List.mem_map.1 hname
    have hissue : .fieldName p.1 ∈ d.issues := by
      refine mem_issues_iff.2 ⟨_, hinner, List.mem_map_of_mem (List.mem_filter.2 ⟨hp, ?_⟩)⟩
      simpa using hnot
    rw [h] at hissue
    cases hissue
  | _ => cases hname

/-! ## Other names for parameters -/

mutual

/-- A descriptor with other names for the parameters of all its signatures. -/
def renameParams (rename : String → String) : TypeDescriptor → TypeDescriptor
  | primitive kind values => primitive kind values
  | complex kind => complex kind
  | signed kind params returns =>
    signed kind (renameNamed rename rename params) (renameReturn rename returns)
  | custom kind values => custom kind values
  | union types => union (renameAll rename types)
  | array items low high unique => array (renameParams rename items) low high unique
  | object properties strict => object (renameNamed rename id properties) strict

/-- Descriptors that are named anew themselves. -/
def renameNamed (rename own : String → String) :
    List (String × TypeDescriptor) → List (String × TypeDescriptor)
  | [] => []
  | (name, d) :: rest => (own name, renameParams rename d) :: renameNamed rename own rest

def renameAll (rename : String → String) : List TypeDescriptor → List TypeDescriptor
  | [] => []
  | d :: ds => renameParams rename d :: renameAll rename ds

def renameReturn (rename : String → String) : Option TypeDescriptor → Option TypeDescriptor
  | none => none
  | some d => some (renameParams rename d)

end

section
variable {rename : String → String}

theorem renameNamed_eq (own : String → String) (named : List (String × TypeDescriptor)) :
    renameNamed rename own named = named.map fun p => (own p.1, renameParams rename p.2) := by
  induction named with
  | nil => rfl
  | cons p rest ih => rw [renameNamed, ih, List.map_cons]

theorem renameAll_eq (types : List TypeDescriptor) :
    renameAll rename types = types.map (renameParams rename) := by
  induction types with
  | nil => rfl
  | cons d ds ih => rw [renameAll, ih, List.map_cons]

theorem issuesOfFields_renameNamed {properties : List (String × TypeDescriptor)}
    (h : ∀ p ∈ properties, (p.2.renameParams rename).issues = p.2.issues) :
    issuesOfFields (renameNamed rename id properties) = issuesOfFields properties := by
  induction properties with
  | nil => rfl
  | cons p rest ih =>
    obtain ⟨hp, hrest⟩ := List.forall_mem_cons.1 h
    rw [renameNamed, issuesOfFields, issuesOfFields, hp, ih hrest]
    rfl

/-- The check does not look at the names of parameters. -/
theorem issues_renameParams (d : TypeDescriptor) : (d.renameParams rename).issues = d.issues := by
  induction d using TypeDescriptor.induct with
  | primitive | complex | custom => rfl
  | signed kind params returns hparams hreturns =>
    rw [renameParams, issues, issues, renameNamed_eq, issuesOfNamed_eq, issuesOfNamed_eq,
      List.map_map, List.flatMap_map, List.flatMap_map]
    refine congrArg₂ (· ++ ·) (List.flatMap_congr fun p hp => hparams p hp) ?_
    cases returns with
    | none => rfl
    | some d => exact hreturns d rfl
  | union types ih =>
    rw [renameParams, issues, issues, renameAll_eq, issuesOfAll_eq, issuesOfAll_eq,
      List.flatMap_map, List.isEmpty_map, List.flatMap_congr ih]
  | array items low high unique ih => rw [renameParams, issues, issues, ih]
  | object properties strict ih =>
    rw [renameParams, issues, issues]
    exact issuesOfFields_renameNamed ih

theorem fitsAny_renameAll {types : List TypeDescriptor} {v : Json.Value}
    (h : ∀ d ∈ types, (d.renameParams rename).fits v = d.fits v) :
    fitsAny (renameAll rename types) v = fitsAny types v := by
  induction types with
  | nil => rfl
  | cons d ds ih =>
    obtain ⟨hd, hds⟩ := List.forall_mem_cons.1 h
    rw [renameAll, fitsAny, fitsAny, hd, ih hds]

theorem fitsField_renameNamed {properties : List (String × TypeDescriptor)}
    (h : ∀ p ∈ properties, ∀ v, (p.2.renameParams rename).fits v = p.2.fits v) (strict : Bool)
    (field : String) (v : Json.Value) :
    fitsField (renameNamed rename id properties) strict field v =
      fitsField properties strict field v := by
  induction properties with
  | nil => rfl
  | cons p rest ih =>
    obtain ⟨hp, hrest⟩ := List.forall_mem_cons.1 h
    rw [renameNamed, fitsField, fitsField, hp, ih hrest]
    rfl

/-- What fits does not depend on the names of parameters. -/
theorem fits_renameParams (d : TypeDescriptor) (v : Json.Value) :
    (d.renameParams rename).fits v = d.fits v := by
  induction d using TypeDescriptor.induct generalizing v with
  | primitive | complex | custom => rfl
  | signed => rfl
  | union types ih =>
    rw [renameParams, fits, fits]
    exact fitsAny_renameAll fun d hd => ih d hd v
  | array items low high unique ih =>
    rw [renameParams]
    cases v with
    | array elements =>
      rw [fits, fits]
      exact congrArg elements.all (funext ih)
    | _ => rfl
  | object properties strict ih =>
    rw [renameParams]
    cases v with
    | object fields =>
      rw [fits, fits]
      exact congrArg fields.all (funext fun f => fitsField_renameNamed ih strict f.1 f.2)
    | _ => rfl

theorem summaries_renameAll {types : List TypeDescriptor}
    (h : ∀ d ∈ types, (d.renameParams rename).summary = d.summary) :
    summaries (renameAll rename types) = summaries types := by
  induction types with
  | nil => rfl
  | cons d ds ih =>
    obtain ⟨hd, hds⟩ := List.forall_mem_cons.1 h
    rw [renameAll, summaries, summaries, hd, ih hds]

theorem summary_renameParams (d : TypeDescriptor) :
    (d.renameParams rename).summary = d.summary := by
  induction d using TypeDescriptor.induct with
  | primitive | complex | custom => rfl
  | signed => rfl
  | union types ih =>
    rw [renameParams, summary, summary, summaries_renameAll ih]
  | array items low high unique ih => rw [renameParams, summary, summary, ih]
  | object properties strict ih =>
    rw [renameParams, summary, summary, renameNamed_eq, List.map_map]
    rfl

end

end DesignSystem.TypeDescriptor
