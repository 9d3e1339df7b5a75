import DesignSystem.Generation.Transformation
import DesignSystem.Generator.Css
import DesignSystem.Proofs.Entries
import Mathlib.Data.List.Nodup

/-!
# What becomes of the components of a schema

A transformation says of each component of the schema that it was generated, that it failed, or that
it is not made for the platform.

* `Schema.validate_eq_ok`: the names of the components of a checked schema are distinct.
* `Schema.isInvalid_iff`: whether a component is flagged depends on nothing but the component and the
  key that it stands under.
* `Generator.generate_error`: a component without issues does not fail for its specification.
* `Transformation.foldl_record`: recording what became of components of distinct names adds one
  entry for each, in their order.
* `Generator.transform_accounts`: each component is accounted for exactly once.
-/

set_option autoImplicit false

namespace DesignSystem

variable {g : Generator} {source : TemplateSource} {s : Schema} {options : TransformOptions}
  {v : ValidatedSchema} {t : Transformation} {c : ComponentSpec} {key : String}

/-! ## Checked schemas -/

theorem nodup_of_firstRepeat? : ∀ {names seen : List String}, firstRepeat? seen names = none →
    names.Nodup ∧ ∀ name ∈ names, name ∉ seen
  | [], _, _ => ⟨List.nodup_nil, nofun⟩
  | name :: rest, seen, h => by
    rw [firstRepeat?] at h
    by_cases hseen : name ∈ seen
    · simp [hseen] at h
    · rw [if_neg hseen] at h
      obtain ⟨hnodup, hnew⟩ := nodup_of_firstRepeat? h
      refine ⟨List.nodup_cons.2 ⟨fun hmem => hnew name hmem (.head _), hnodup⟩, ?_⟩
      intro other hother
      rcases List.mem_cons.1 hother with rfl | hother
      · exact hseen
      · exact fun hmem => hnew other hother (.tail _ hmem)

/-- The names of the components of a schema, in order. -/
def Schema.componentNames (s : Schema) : List String := s.components.values.map (·.name)

theorem Schema.validate_eq_ok (h : s.validate = .ok v) : s.tokens.resolve = .ok v.tokens ∧
    s.componentNames.Nodup ∧ v.invalid = s.components.filterMap fun c => c.2.entryError? c.1 := by
  unfold validate at h
  split at h
  · cases h
  · split at h
    · cases h
    · next tokens htokens =>
      split at h
      · cases h
      · next hrepeat =>
        cases h
        refine ⟨htokens, ?_, rfl⟩
        have hnodup := (nodup_of_firstRepeat? hrepeat).1
        simpa [componentNames, Entries.values, Function.comp_def] using hnodup

/-- A component of the schema is told from the others by its name. -/
theorem Schema.eq_of_name_eq (h : s.componentNames.Nodup) {c' : ComponentSpec}
    (hc : c ∈ s.components.values) (hc' : c' ∈ s.components.values) (hname : c'.name = c.name) :
    c' = c := List.inj_on_of_nodup_map h hc' hc hname

theorem Schema.entry_eq_of_name_eq (h : s.componentNames.Nodup) {e e' : String × ComponentSpec}
    (he : e ∈ s.components) (he' : e' ∈ s.components) (hname : e.2.name = e'.2.name) : e = e' := by
  refine List.inj_on_of_nodup_map (f := fun e => e.2.name) ?_ he he' hname
  simpa [componentNames, Entries.values, Function.comp_def] using h

theorem specError?_component {component : String} {issues : List Issue} {e : SpecError}
    (h : specError? component issues = some e) : e.component = component := by
  unfold specError? at h
  split at h
  · cases h
  · cases h
    rfl

/-- The error that stands for a component is its own. -/
theorem Schema.find?_invalid (h : s.validate = .ok v) (hc : (key, c) ∈ s.components) :
    v.invalid.find? (·.component = c.name) = c.entryError? key := by
  obtain ⟨-, hnodup, hinvalid⟩ := validate_eq_ok h
  -- an error of that name is the error of that component
  have hown : ∀ e ∈ v.invalid, e.component = c.name → c.entryError? key = some e := by
    intro e he hname
    rw [hinvalid] at he
    obtain ⟨⟨key', c'⟩, hc', he⟩ := List.mem_filterMap.1 he
    have hsame : c'.name = c.name := by rw [← specError?_component he, hname]
    cases entry_eq_of_name_eq hnodup hc' hc hsame
    exact he
  cases hfind : v.invalid.find? (·.component = c.name) with
  | some e =>
    have hname : e.component = c.name := by simpa using List.find?_some hfind
    exact (hown e (List.mem_of_find?_eq_some hfind) hname).symm
  | none =>
    cases he : c.entryError? key with
    | none => rfl
    | some e =>
      have hmem : e ∈ v.invalid := by
        rw [hinvalid]
        exact List.mem_filterMap.2 ⟨_, hc, he⟩
      simpa [specError?_component he] using List.find?_eq_none.1 hfind e hmem

theorem Schema.isInvalid_iff (h : s.validate = .ok v) (hc : (key, c) ∈ s.components) :
    v.isInvalid c.name ↔ (c.entryError? key).isSome := by
  rw [← find?_invalid h hc, ValidatedSchema.isInvalid, List.isSome_find?]

theorem ComponentSpec.error?_of_entryError? (h : c.entryError? key = none) : c.error? = none := by
  unfold entryError? error? specError? at *
  split at h
  · next hempty => simp_all
  · cases h

/-- A component that is not flagged has no issues. -/
theorem Schema.error?_of_not_isInvalid (h : s.validate = .ok v) (hc : c ∈ s.components.values)
    (hv : ¬ v.isInvalid c.name) : c.error? = none := by
  obtain ⟨⟨key, c⟩, hentry, rfl⟩ := List.mem_map.1 hc
  rw [isInvalid_iff h hentry] at hv
  exact ComponentSpec.error?_of_entryError? (by simpa using hv)

/-! ## One component -/

namespace Generator

theorem validate_eq_ok (h : g.validate s = .ok v) : s.validate = .ok v := by
  obtain ⟨v', hv, h⟩ := bind_eq_ok h
  obtain ⟨-, -, h⟩ := bind_eq_ok h
  cases h
  exact hv

theorem generate_name {tokens : FlatTokens} {d : GeneratedComponent}
    (h : g.generate source c options tokens = .ok d) : d.name = c.name := by
  obtain ⟨m, -, h⟩ := bind_eq_ok h
  obtain ⟨code, -, h⟩ := bind_eq_ok h
  cases h
  rfl

/-- A component without issues fails for other reasons than its specification. -/
theorem generate_error {tokens : FlatTokens} {e : SpecError} (hc : c.error? = none) :
    g.generate source c options tokens ≠ .error (.specification e) := by
  intro h
  rcases bind_eq_error h with hmodel | ⟨m, -, h⟩
  · unfold model at hmodel
    rw [hc] at hmodel
    obtain ⟨_, _, he⟩ := mapError_eq_error (map_eq_error hmodel)
    cases he
  · rcases bind_eq_error h with hcode | ⟨_, -, h⟩
    · unfold code at hcode
      split at hcode
      · cases hcode
      · rcases bind_eq_error hcode with hread | ⟨_, -, hcode⟩
        · obtain ⟨_, _, he⟩ := mapError_eq_error hread
          cases he
        · rcases bind_eq_error hcode with hrender | ⟨_, -, hcode⟩
          · obtain ⟨_, _, he⟩ := mapError_eq_error hrender
            cases he
          · cases hcode
    · cases h

end Generator

theorem GenerationError.kind_eq_iff {e : GenerationError} :
    e.kind = "invalid_specification" ↔ ∃ e', e = .specification e' := by
  cases e <;> simp [kind]

/-! ## Recording -/

/-- The failure of a component, if it failed. -/
def ComponentSpec.failure? (c : ComponentSpec) :
    Except GenerationError GeneratedComponent → Option ComponentFailure
  | .ok _ => none
  | .error e => some ⟨c.name, e⟩

namespace Transformation

theorem record_ok {d : GeneratedComponent} (hname : d.name = c.name)
    (hnew : c.name ∉ t.components.names) (hexamples : t.examples.names = t.components.names) :
    t.record c.name (.ok d) = { t with
      files := t.files.putAll d.files
      examples := t.examples ++ [(c.name, d.usage)]
      components := t.components ++ [(c.name, d.code)] } := by
  rw [record, hname, Entries.insert_of_notMem hnew, Entries.insert_of_notMem (hexamples ▸ hnew)]

/-- Recording what became of components of distinct names adds one entry for each, in their order. -/
theorem foldl_record (outcome : ComponentSpec → Except GenerationError GeneratedComponent) :
    ∀ (cs : List ComponentSpec) {t : Transformation},
      (∀ c ∈ cs, ∀ d, outcome c = .ok d → d.name = c.name) →
      (t.components.names ++ cs.map (·.name)).Nodup → t.examples.names = t.components.names →
      ∃ t', cs.foldl (fun t c => t.record c.name (outcome c)) t = t' ∧
        t'.components = t.components ++
          cs.filterMap (fun c => (outcome c).toOption.map fun d => (c.name, d.code)) ∧
        t'.examples = t.examples ++
          cs.filterMap (fun c => (outcome c).toOption.map fun d => (c.name, d.usage)) ∧
        t'.failures = t.failures ++ cs.filterMap (fun c => c.failure? (outcome c)) ∧
        t'.skipped = t.skipped
  | [], t, _, _, _ => ⟨t, by simp⟩
  | c :: cs, t, hname, hnodup, hexamples => by
    have hnames : ∀ c' ∈ cs, ∀ d, outcome c' = .ok d → d.name = c'.name :=
      fun c' hc' => hname c' (.tail _ hc')
    rw [List.foldl_cons]
    cases ho : outcome c with
    | error e =>
      have hrest : (t.components.names ++ cs.map (·.name)).Nodup :=
        hnodup.sublist (List.sublist_cons_self _ _ |>.append_left _)
      obtain ⟨t', ht', hc, he, hf, hs⟩ := foldl_record outcome cs
        (t := { t with failures := t.failures ++ [⟨c.name, e⟩] }) hnames hrest hexamples
      refine ⟨t', ht', ?_, ?_, ?_, hs⟩
      · simpa [ho, Except.toOption] using hc
      · simpa [ho, Except.toOption] using he
      · simpa [ho, ComponentSpec.failure?] using hf
    | ok d =>
      have hnew : c.name ∉ t.components.names := by
        intro hmem
        exact (List.nodup_append.1 hnodup).2.2 _ hmem _ List.mem_cons_self rfl
      rw [record_ok (hname c (.head _) d ho) hnew hexamples]
      have hrest : (Entries.names (t.components ++ [(c.name, d.code)]) ++ cs.map (·.name)).Nodup := by
        simpa [Entries.names] using hnodup
      have hkept : Entries.names (t.examples ++ [(c.name, d.usage)]) =
          Entries.names (t.components ++ [(c.name, d.code)]) := by
        simpa [Entries.names] using hexamples
      obtain ⟨t', ht', hc, he, hf, hs⟩ := foldl_record outcome cs
        (t := { t with
          files := t.files.putAll d.files
          examples := t.examples ++ [(c.name, d.usage)]
          components := t.components ++ [(c.name, d.code)] }) hnames hrest hkept
      refine ⟨t', ht', ?_, ?_, ?_, hs⟩
      · simpa [ho, Except.toOption] using hc
      · simpa [ho, Except.toOption] using he
      · simpa [ho, ComponentSpec.failure?] using hf

end Transformation

/-! ## Accounts -/

/-- What a transformation `t` says of the components of a checked schema. -/
structure Accounts (g : Generator) (source : TemplateSource) (s : Schema)
    (options : TransformOptions) (v : ValidatedSchema) (t : Transformation) : Prop where
  names : s.componentNames.Nodup
  /-- No component is left out, and none stands in two of the three lists, or twice in one. -/
  once : (t.components.names ++ t.failures.map (·.component) ++ t.skipped).Perm s.componentNames
  componentsOrder : t.components.names.Sublist s.componentNames
  failuresOrder : (t.failures.map (·.component)).Sublist s.componentNames
  skippedOrder : t.skipped.Sublist s.componentNames
  skipped : ∀ c ∈ s.components.values,
    (c.name ∈ t.skipped ↔ c.platforms ≠ [] ∧ g.platform.id ∉ c.platforms)
  flagged : ∀ c ∈ s.components.values,
    ((∃ f ∈ t.failures, f.component = c.name ∧ f.error.kind = "invalid_specification") ↔
      c.supports g.platform.id ∧ v.isInvalid c.name)
  examples : t.examples.names = t.components.names
  /-- The source of a component is what is generated for it alone. -/
  generated : ∀ c ∈ s.components.values, ∀ code, (c.name, code) ∈ t.components ↔
    c.supports g.platform.id ∧ ¬ v.isInvalid c.name ∧
      ∃ d, g.generate source c options v.tokens = .ok d ∧ d.code = code
  usage : ∀ c ∈ s.components.values, ∀ usage, (c.name, usage) ∈ t.examples ↔
    c.supports g.platform.id ∧ ¬ v.isInvalid c.name ∧
      ∃ d, g.generate source c options v.tokens = .ok d ∧ d.usage = usage
  failed : ∀ c ∈ s.components.values, ¬ v.isInvalid c.name → ∀ e, ⟨c.name, e⟩ ∈ t.failures ↔
    c.supports g.platform.id ∧ g.generate source c options v.tokens = .error e
  /-- Whether a component is valid does not depend on the others. -/
  alone : ∀ key c, (key, c) ∈ s.components → (v.isInvalid c.name ↔ (c.entryError? key).isSome)

section
variable {outcome : ComponentSpec → Except GenerationError GeneratedComponent}

theorem names_made (cs : List ComponentSpec) (part : GeneratedComponent → String) :
    Entries.names (cs.filterMap fun c => (outcome c).toOption.map fun d => (c.name, part d)) =
      (cs.filter fun c => (outcome c).isOk).map (·.name) := by
  induction cs with
  | nil => rfl
  | cons c cs ih =>
    cases ho : outcome c with
    | ok d => simpa [ho, Except.toOption, Except.isOk, Except.toBool, Entries.names] using ih
    | error e => simpa [ho, Except.toOption, Except.isOk, Except.toBool] using ih

theorem names_failed (cs : List ComponentSpec) :
    (cs.filterMap fun c => c.failure? (outcome c)).map (·.component) =
      (cs.filter fun c => !(outcome c).isOk).map (·.name) := by
  induction cs with
  | nil => rfl
  | cons c cs ih =>
    cases ho : outcome c with
    | ok d => simpa [ho, ComponentSpec.failure?, Except.isOk, Except.toBool] using ih
    | error e => simpa [ho, ComponentSpec.failure?, Except.isOk, Except.toBool] using ih

/-- Among components of distinct names an entry under the name of one is its own. -/
theorem mem_made {cs : List ComponentSpec} (hcs : ∀ c' ∈ cs, c'.name = c.name → c' = c)
    (part : GeneratedComponent → String) (text : String) :
    (c.name, text) ∈ cs.filterMap (fun c => (outcome c).toOption.map fun d => (c.name, part d)) ↔
      c ∈ cs ∧ ∃ d, outcome c = .ok d ∧ part d = text := by
  rw [List.mem_filterMap]
  constructor
  · rintro ⟨c', hc', h⟩
    obtain ⟨d, hd, h⟩ := Option.map_eq_some_iff.1 h
    obtain ⟨hname, htext⟩ := Prod.mk.inj h
    obtain rfl := hcs c' hc' hname
    refine ⟨hc', d, ?_, htext⟩
    cases ho : outcome c' with
    | ok d' =>
      rw [ho] at hd
      exact congrArg Except.ok (Option.some.inj hd)
    | error e =>
      rw [ho] at hd
      cases hd
  · rintro ⟨hc, d, ho, rfl⟩
    exact ⟨c, hc, by simp [ho, Except.toOption]⟩

theorem mem_failed {cs : List ComponentSpec} (hcs : ∀ c' ∈ cs, c'.name = c.name → c' = c)
    (e : GenerationError) : ⟨c.name, e⟩ ∈ cs.filterMap (fun c => c.failure? (outcome c)) ↔
      c ∈ cs ∧ outcome c = .error e := by
  rw [List.mem_filterMap]
  constructor
  · rintro ⟨c', hc', h⟩
    cases ho : outcome c' with
    | ok d =>
      rw [ho] at h
      cases h
    | error e' =>
      rw [ho] at h
      obtain ⟨hname, rfl⟩ := ComponentFailure.mk.inj (Option.some.inj h)
      obtain rfl := hcs c' hc' hname
      exact ⟨hc', ho⟩
  · rintro ⟨hc, ho⟩
    exact ⟨c, hc, by rw [ho]; rfl⟩

end

namespace Generator

theorem outcome_of_valid (h : ¬ v.isInvalid c.name) :
    g.outcome source v options c = g.generate source c options v.tokens := by
  have hnone : v.invalid.find? (·.component = c.name) = none := by
    rw [ValidatedSchema.isInvalid, ← List.isSome_find?] at h
    simpa using h
  rw [outcome, hnone]

variable (g source options) in
theorem outcome_of_invalid (h : v.isInvalid c.name) :
    ∃ e, g.outcome source v options c = .error (.specification e) := by
  rw [ValidatedSchema.isInvalid, ← List.isSome_find?] at h
  obtain ⟨e, he⟩ := Option.isSome_iff_exists.1 h
  exact ⟨e, by rw [outcome, he]⟩

theorem outcome_eq_ok {d : GeneratedComponent} : g.outcome source v options c = .ok d ↔
    ¬ v.isInvalid c.name ∧ g.generate source c options v.tokens = .ok d := by
  by_cases hv : v.isInvalid c.name
  · obtain ⟨e, he⟩ := outcome_of_invalid g source options hv
    simp [he, hv]
  · rw [outcome_of_valid hv, and_iff_right hv]

variable (g source options) in
/-- A component fails for its specification just if the check of the schema flags it. -/
theorem outcome_eq_specification (hc : ¬ v.isInvalid c.name → c.error? = none) :
    (∃ e, g.outcome source v options c = .error (.specification e)) ↔ v.isInvalid c.name := by
  refine ⟨fun ⟨e, he⟩ => ?_, outcome_of_invalid g source options⟩
  by_contra hv
  rw [outcome_of_valid hv] at he
  exact generate_error (hc hv) he

/-- The lists of a transformation, by what becomes of each component. -/
theorem transform_eq_ok (h : g.transform source s options = .ok t) : ∃ v, s.validate = .ok v ∧
    t.components = (g.requested s).filterMap
      (fun c => (g.outcome source v options c).toOption.map fun d => (c.name, d.code)) ∧
    t.examples = (g.requested s).filterMap
      (fun c => (g.outcome source v options c).toOption.map fun d => (c.name, d.usage)) ∧
    t.failures = (g.requested s).filterMap (fun c => c.failure? (g.outcome source v options c)) ∧
    t.skipped = (s.components.values.filter (!·.supports g.platform.id)).map (·.name) := by
  obtain ⟨v, hv, h⟩ := bind_eq_ok h
  have hvalid := validate_eq_ok (mapError_eq_ok hv)
  have hrequested : ((g.requested s).map (·.name)).Nodup :=
    (Schema.validate_eq_ok hvalid).2.1.sublist (List.filter_sublist.map _)
  obtain ⟨t', ht', hrecorded⟩ := Transformation.foldl_record (g.outcome source v options)
    (g.requested s) (t := g.foundation s v.tokens)
    (fun c _ d hd => generate_name (outcome_eq_ok.1 hd).2) hrequested rfl
  obtain rfl : t' = t := ht'.symm.trans (Except.ok.inj h)
  exact ⟨v, hvalid, hrecorded⟩

theorem requested_sublist : (g.requested s).Sublist s.components.values := List.filter_sublist

theorem mem_requested (hc : c ∈ s.components.values) :
    c ∈ g.requested s ↔ c.supports g.platform.id := by
  rw [requested, List.mem_filter, and_iff_right hc]

theorem eq_of_requested (h : s.componentNames.Nodup) (hc : c ∈ s.components.values) :
    ∀ c' ∈ g.requested s, c'.name = c.name → c' = c :=
  fun _ hc' => Schema.eq_of_name_eq h hc (requested_sublist.subset hc')

theorem mem_skipped (h : s.componentNames.Nodup) (hc : c ∈ s.components.values) :
    c.name ∈ (s.components.values.filter (!·.supports g.platform.id)).map (·.name) ↔
      c.platforms ≠ [] ∧ g.platform.id ∉ c.platforms := by
  have hlacks : (!c.supports g.platform.id) = true ↔
      c.platforms ≠ [] ∧ g.platform.id ∉ c.platforms := by
    simp [ComponentSpec.supports]
  rw [List.mem_map, ← hlacks]
  constructor
  · rintro ⟨c', hc', hname⟩
    obtain ⟨hc', hs⟩ := List.mem_filter.1 hc'
    rwa [Schema.eq_of_name_eq h hc hc' hname] at hs
  · exact fun hs => ⟨c, List.mem_filter.2 ⟨hc, hs⟩, rfl⟩

/-- A component that is made for the platform fails for its specification just if the check of the
schema flags it. -/
theorem exists_specification_failure (h : s.validate = .ok v) (hc : c ∈ s.components.values) :
    (∃ f ∈ (g.requested s).filterMap (fun c => c.failure? (g.outcome source v options c)),
      f.component = c.name ∧ f.error.kind = "invalid_specification") ↔
      c.supports g.platform.id ∧ v.isInvalid c.name := by
  have hasked := eq_of_requested (g := g) (Schema.validate_eq_ok h).2.1 hc
  rw [← outcome_eq_specification g source options (Schema.error?_of_not_isInvalid h hc),
    ← mem_requested hc]
  constructor
  · rintro ⟨⟨_, e⟩, hf, rfl, hkind⟩
    obtain ⟨hreq, ho⟩ := (mem_failed hasked e).1 hf
    obtain ⟨e', rfl⟩ := GenerationError.kind_eq_iff.1 hkind
    exact ⟨hreq, e', ho⟩
  · rintro ⟨hreq, e, he⟩
    exact ⟨_, (mem_failed hasked _).2 ⟨hreq, he⟩, rfl, rfl⟩

/-- Each component of a schema that is transformed is accounted for exactly once. -/
theorem transform_accounts (h : g.transform source s options = .ok t) :
    ∃ v, s.validate = .ok v ∧ s.tokens.resolve = .ok v.tokens ∧ Accounts g source s options v t := by
  obtain ⟨v, hvalid, hcomponents, hexamples, hfailures, hskipped⟩ := transform_eq_ok h
  obtain ⟨htokens, hnodup, -⟩ := Schema.validate_eq_ok hvalid
  -- the three lists hold the names of three parts of the components
  have hmade : t.components.names =
      ((g.requested s).filter fun c => (g.outcome source v options c).isOk).map (·.name) := by
    rw [hcomponents, names_made]
  have hfailed : t.failures.map (·.component) =
      ((g.requested s).filter fun c => !(g.outcome source v options c).isOk).map (·.name) := by
    rw [hfailures, names_failed]
  exact ⟨v, hvalid, htokens, {
    names := hnodup
    once := by
      rw [hmade, hfailed, hskipped, ← List.map_append, ← List.map_append]
      refine List.Perm.map _ (.trans (.append_right _ (List.filter_append_perm _ _)) ?_)
      exact List.filter_append_perm _ _
    componentsOrder := by
      rw [hmade]
      exact (List.filter_sublist.trans requested_sublist).map _
    failuresOrder := by
      rw [hfailed]
      exact (List.filter_sublist.trans requested_sublist).map _
    skippedOrder := by
      rw [hskipped]
      exact List.filter_sublist.map _
    skipped := fun c hc => by rw [hskipped, mem_skipped hnodup hc]
    flagged := fun c hc => by rw [hfailures, exists_specification_failure hvalid hc]
    examples := by rw [hexamples, names_made, hmade]
    generated := fun c hc code => by
      rw [hcomponents, mem_made (eq_of_requested hnodup hc), mem_requested hc]
      simp only [outcome_eq_ok, and_assoc, exists_and_left]
    usage := fun c hc usage => by
      rw [hexamples, mem_made (eq_of_requested hnodup hc), mem_requested hc]
      simp only [outcome_eq_ok, and_assoc, exists_and_left]
    failed := fun c hc hv e => by
      rw [hfailures, mem_failed (eq_of_requested hnodup hc), mem_requested hc, outcome_of_valid hv]
    alone := fun key c hc => Schema.isInvalid_iff hvalid hc }⟩

/-- One component is not made for the platform, one has no role, and one has a prop without a type
on the platform. -/
def mixedSchema : Schema where
  id := "acme"
  components := [
    ("Hero", { name := "Hero", category := .layout, platforms := [⟨"react"⟩] }),
    ("Card", { name := "Card", category := .layout, accessibility := { role := "region" } }),
    ("Orphan", { name := "Orphan", category := .layout }),
    ("Chart", { name := "Chart", category := .dataDisplay, accessibility := { role := "img" }
                props := [("series", { descriptor := .custom (.other "series") none })] })]

theorem transform_accounts_mixedSchema : ∃ t v,
    Css.generator.transform .empty mixedSchema {} = .ok t ∧ t.components.names = ["Card"] ∧
      t.failures.map (fun f => (f.component, f.error.kind)) =
        [("Orphan", "invalid_specification"), ("Chart", "unmappable_type")] ∧
      t.skipped = ["Hero"] ∧ Accounts Css.generator .empty mixedSchema {} v t := by
  have h : (Css.generator.transform .empty mixedSchema {}).map (fun t => (t.components.names,
      t.failures.map (fun f => (f.component, f.error.kind)), t.skipped)) =
      .ok (["Card"], [("Orphan", "invalid_specification"), ("Chart", "unmappable_type")],
        ["Hero"]) := rfl
  obtain ⟨t, ht, hparts⟩ := map_eq_ok h
  simp only [Prod.mk.injEq] at hparts
  obtain ⟨v, -, -, haccounts⟩ := transform_accounts ht
  exact ⟨t, v, ht, hparts.1, hparts.2.1, hparts.2.2, haccounts⟩

end Generator

end DesignSystem
