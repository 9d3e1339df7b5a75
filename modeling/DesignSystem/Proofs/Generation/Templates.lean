import DesignSystem.Proofs.Generation.Manifest
import Mathlib.Data.List.Find

/-!
# What a template decides

A template is looked for at the candidate places of a component, in their order. It decides what
becomes of the components that look for it, and of nothing else.

* `Generator.code_congr`, `Generator.outcome_congr`: a component comes out the same from sources
  that have the same templates at its candidate places.
* `Generator.sourced`: the first template there is rendered, or the component fails; only without
  any template it is written by the generator.
* `Generator.reports`: a transformation says of a component what became of it.
* `Generator.get?_files`: the manifest holds the last file that is emitted for a path.
* `Generator.transform_template`: transformations whose templates differ at one path differ at most
  in the components that look for it and in the files of those.
-/

set_option autoImplicit false

namespace DesignSystem

variable {g : Generator} {source source' : TemplateSource} {a b : Entries String} {p path : String}
  {s : Schema} {options : TransformOptions} {v : ValidatedSchema} {t t' : Transformation}
  {c : ComponentSpec} {m : ComponentModel} {tokens : FlatTokens}

/-- Collections with the same templates, save for the one at `p`. -/
def SameBut (p : String) (a b : Entries String) : Prop :=
  ∀ path, path ≠ p → a.get? path = b.get? path

/-- Whether a component is generated at all and has `p` among its candidate places. -/
def Generator.LooksAt (g : Generator) (options : TransformOptions) (v : ValidatedSchema)
    (p : String) (c : ComponentSpec) : Prop :=
  c.supports g.platform.id ∧ ¬ v.isInvalid c.name ∧
    ∃ m, g.model c options v.tokens = .ok m ∧ p ∈ g.candidates m

/-- Whether a component is generated with a file at `path`. -/
def Generator.Writes (g : Generator) (source : TemplateSource) (options : TransformOptions)
    (v : ValidatedSchema) (path : String) (c : ComponentSpec) : Prop :=
  c.supports g.platform.id ∧ ∃ d, g.outcome source v options c = .ok d ∧ path ∈ d.files.paths

namespace Generator

/-! ## One component -/

theorem code_congr (hhas : ∀ path ∈ g.candidates m, source.has path = source'.has path)
    (hread : ∀ path ∈ g.candidates m, source.read path = source'.read path) :
    g.code source m = g.code source' m := by
  unfold code
  rw [List.find?_congr hhas]
  split
  · rfl
  · next path hfind => rw [hread path (List.mem_of_find?_eq_some hfind)]

theorem outcome_congr (hab : SameBut p a b) (hc : c.supports g.platform.id)
    (hlooks : ¬ g.LooksAt options v p c) :
    g.outcome (.collection a) v options c = g.outcome (.collection b) v options c := by
  by_cases hv : v.isInvalid c.name
  · simp only [outcome]
    rw [ValidatedSchema.isInvalid, ← List.isSome_find?] at hv
    obtain ⟨e, he⟩ := Option.isSome_iff_exists.1 hv
    rw [he]
  · rw [outcome_of_valid hv, outcome_of_valid hv]
    unfold generate
    cases hm : g.model c options v.tokens with
    | error e => rfl
    | ok m =>
      have hget : ∀ path ∈ g.candidates m, a.get? path = b.get? path := by
        intro path hpath
        refine hab path fun hp => hlooks ⟨hc, hv, m, hm, hp ▸ hpath⟩
      have hcode : g.code (.collection a) m = g.code (.collection b) m :=
        code_congr (fun path hpath => congrArg Option.isSome (hget path hpath))
          fun path hpath => by simp only [TemplateSource.collection, hget path hpath]
      change (g.code (.collection a) m).bind _ = (g.code (.collection b) m).bind _
      rw [hcode]

/-- What becomes of a component with the model `m`, given the templates at its candidate places. -/
structure Sourced (g : Generator) (templates : Entries String) (m : ComponentModel)
    (outcome : Except GenerationError GeneratedComponent) : Prop where
  builtIn : (∃ d, outcome = .ok d ∧ d.origin = .generator) ↔
    ∀ path ∈ g.candidates m, ¬ templates.has path
  written : ∀ d, outcome = .ok d → d.origin = .generator → d.code = g.source m
  /-- The first template is rendered, and it does not matter what stands at later places. -/
  rendered : ∀ earlier path later text code, g.candidates m = earlier ++ path :: later →
    (∀ q ∈ earlier, ¬ templates.has q) → templates.get? path = some text →
    Template.renderText text m.toData = .ok code →
    ∃ d, outcome = .ok d ∧ d.origin = .template path ∧ d.code = code
  failed : ∀ earlier path later text fault, g.candidates m = earlier ++ path :: later →
    (∀ q ∈ earlier, ¬ templates.has q) → templates.get? path = some text →
    Template.renderText text m.toData = .error fault →
    ∃ e, outcome = .error e ∧ e = .template path fault ∧ path.toList <:+: e.message.toList

theorem code_of_none (h : ∀ path ∈ g.candidates m, ¬ source.has path) :
    g.code source m = .ok (g.source m, .generator) := by
  rw [code, List.find?_eq_none.2 h]

theorem code_of_first {earlier later : List String} {text : String}
    (hcandidates : g.candidates m = earlier ++ path :: later)
    (hearlier : ∀ q ∈ earlier, ¬ a.has q) (htext : a.get? path = some text) :
    g.code (.collection a) m = (m.render path text).map fun code => (code, .template path) := by
  have hfirst : (g.candidates m).find? (TemplateSource.collection a).has = some path := by
    refine List.find?_eq_some_iff_append.2 ⟨?_, earlier, later, hcandidates, fun q hq => ?_⟩
    · exact Option.isSome_iff_exists.2 ⟨text, htext⟩
    · exact Bool.not_eq_true' _ ▸ Bool.eq_false_iff.2 (hearlier q hq)
  have hread : (TemplateSource.collection a).read path = .ok text := by
    simp only [TemplateSource.collection, htext]
  rw [code, hfirst]
  simp only [hread]
  change (m.render path text).bind (fun code => .ok (code, CodeOrigin.template path)) = _
  cases m.render path text <;> rfl

theorem generate_of_model (hm : g.model c options tokens = .ok m) :
    g.generate source c options tokens = (g.code source m).map fun x =>
      ⟨c.name, x.1, x.2, g.usage m, g.assemble m x.1⟩ := by
  unfold generate
  rw [hm]
  change (g.code source m).bind (fun x =>
    .ok (⟨c.name, x.1, x.2, g.usage m, g.assemble m x.1⟩ : GeneratedComponent)) = _
  cases g.code source m <;> rfl

theorem message_template (path : String) (fault : Template.Fault) :
    path.toList <:+: (GenerationError.template path fault).message.toList := by
  have hmessage : (GenerationError.template path fault).message =
      "Template '" ++ path ++ ("' failed to render: " ++ fault.message) :=
    String.append_assoc
  rw [hmessage, String.toList_append, String.toList_append]
  exact List.infix_append _ _ _

/-- A candidate place with a template has a first one before it, or is the first. -/
theorem exists_first {paths : List String} (h : ∃ path ∈ paths, a.has path) :
    ∃ earlier path later text, paths = earlier ++ path :: later ∧ (∀ q ∈ earlier, ¬ a.has q) ∧
      a.get? path = some text := by
  cases hfind : paths.find? a.has with
  | none =>
    obtain ⟨path, hpath, hhas⟩ := h
    exact absurd hhas (List.find?_eq_none.1 hfind path hpath)
  | some path =>
    obtain ⟨hhas, earlier, later, hpaths, hearlier⟩ := List.find?_eq_some_iff_append.1 hfind
    obtain ⟨text, htext⟩ := Option.isSome_iff_exists.1 hhas
    exact ⟨earlier, path, later, text, hpaths, fun q hq => by simpa using hearlier q hq, htext⟩

theorem sourced (hm : g.model c options tokens = .ok m) :
    Sourced g a m (g.generate (.collection a) c options tokens) := by
  rw [generate_of_model hm]
  have hnone : (∀ path ∈ g.candidates m, ¬ a.has path) →
      g.code (.collection a) m = .ok (g.source m, .generator) := fun h => code_of_none h
  have hsome : (∃ path ∈ g.candidates m, a.has path) →
      ∃ path text, g.code (.collection a) m =
        (m.render path text).map fun code => (code, .template path) := by
    intro h
    obtain ⟨earlier, path, later, text, hcandidates, hearlier, htext⟩ := exists_first h
    exact ⟨path, text, code_of_first hcandidates hearlier htext⟩
  -- without a template the generator writes the source, and with one it never does
  have horigin : ∀ d, (g.code (.collection a) m).map (fun x =>
      (⟨c.name, x.1, x.2, g.usage m, g.assemble m x.1⟩ : GeneratedComponent)) = .ok d →
      d.origin = .generator → ∀ path ∈ g.candidates m, ¬ a.has path := by
    intro d hd hgenerator path hpath hhas
    obtain ⟨first, text, hcode⟩ := hsome ⟨path, hpath, hhas⟩
    obtain ⟨x, hx, rfl⟩ := map_eq_ok hd
    rw [hcode] at hx
    obtain ⟨code, -, rfl⟩ := map_eq_ok hx
    cases hgenerator
  constructor
  · constructor
    · rintro ⟨d, hd, hgenerator⟩
      exact horigin d hd hgenerator
    · intro h
      rw [hnone h]
      exact ⟨_, rfl, rfl⟩
  · intro d hd hgenerator
    rw [hnone (horigin d hd hgenerator)] at hd
    cases hd
    rfl
  · intro earlier path later text code hcandidates hearlier htext hrender
    rw [code_of_first hcandidates hearlier htext, ComponentModel.render, hrender]
    exact ⟨_, rfl, rfl, rfl⟩
  · intro earlier path later text fault hcandidates hearlier htext hrender
    rw [code_of_first hcandidates hearlier htext, ComponentModel.render, hrender]
    exact ⟨_, rfl, rfl, message_template path fault⟩

end Generator

/-! ## What a transformation says of a component -/

/-- What a transformation says of a component that came out as `outcome`. -/
structure Transformation.Reports (t : Transformation) (c : ComponentSpec)
    (outcome : Except GenerationError GeneratedComponent) : Prop where
  code : t.components.get? c.name = outcome.toOption.map (·.code)
  usage : t.examples.get? c.name = outcome.toOption.map (·.usage)
  failure : t.failure? c.name = c.failure? outcome

section
variable {outcome : ComponentSpec → Except GenerationError GeneratedComponent}

theorem get?_made (part : GeneratedComponent → String) {cs : List ComponentSpec}
    (hcs : ∀ c' ∈ cs, c'.name = c.name → c' = c) (hc : c ∈ cs) :
    Entries.get? c.name (cs.filterMap fun c =>
      (outcome c).toOption.map fun d => (c.name, part d)) = (outcome c).toOption.map part := by
  cases hget : Entries.get? c.name (cs.filterMap fun c =>
      (outcome c).toOption.map fun d => (c.name, part d)) with
  | some text =>
    obtain ⟨-, d, ho, rfl⟩ := (mem_made hcs part text).1 (Entries.mem_of_get? hget)
    rw [ho]
    rfl
  | none =>
    cases ho : outcome c with
    | error e => rfl
    | ok d =>
      have hmem := (mem_made hcs part (part d)).2 ⟨hc, d, ho, rfl⟩
      exact absurd (List.mem_map_of_mem (f := (·.1)) hmem) (Entries.notMem_names hget)

theorem find?_failed {cs : List ComponentSpec} (hcs : ∀ c' ∈ cs, c'.name = c.name → c' = c)
    (hc : c ∈ cs) : (cs.filterMap fun c => c.failure? (outcome c)).find?
      (·.component = c.name) = c.failure? (outcome c) := by
  cases hfind : (cs.filterMap fun c => c.failure? (outcome c)).find? (·.component = c.name) with
  | some f =>
    obtain ⟨component, e⟩ := f
    obtain rfl : component = c.name := by simpa using List.find?_some hfind
    obtain ⟨-, ho⟩ := (mem_failed hcs e).1 (List.mem_of_find?_eq_some hfind)
    rw [ho]
    rfl
  | none =>
    cases ho : outcome c with
    | ok d => rfl
    | error e =>
      have hmem := (mem_failed hcs e).2 ⟨hc, ho⟩
      simpa using List.find?_eq_none.1 hfind _ hmem

end

namespace Generator

theorem reports (hv : s.validate = .ok v) (h : g.transform source s options = .ok t)
    (hc : c ∈ s.components.values) (hs : c.supports g.platform.id) :
    t.Reports c (g.outcome source v options c) := by
  obtain ⟨v', hv', hcomponents, hexamples, hfailures, -⟩ := transform_eq_ok h
  obtain rfl := Except.ok.inj (hv.symm.trans hv')
  have hown := eq_of_requested (g := g) (Schema.validate_eq_ok hv).2.1 hc
  have hrequested := (mem_requested hc).2 hs
  constructor
  · rw [hcomponents, get?_made (·.code) hown hrequested]
  · rw [hexamples, get?_made (·.usage) hown hrequested]
  · rw [Transformation.failure?, hfailures, find?_failed hown hrequested]

/-- Nothing is said of a component that is not made for the platform. -/
theorem reports_none (hv : s.validate = .ok v) (h : g.transform source s options = .ok t)
    (hc : c ∈ s.components.values) (hs : ¬ c.supports g.platform.id) :
    t.components.get? c.name = none ∧ t.examples.get? c.name = none ∧ t.failure? c.name = none := by
  obtain ⟨v', hv', hcomponents, hexamples, hfailures, -⟩ := transform_eq_ok h
  obtain rfl := Except.ok.inj (hv.symm.trans hv')
  have hown := eq_of_requested (g := g) (Schema.validate_eq_ok hv).2.1 hc
  have hother : ∀ c' ∈ g.requested s, c'.name ≠ c.name := by
    intro c' hc' hname
    obtain rfl := hown c' hc' hname
    exact hs ((mem_requested hc).1 hc')
  have hnames : ∀ part : GeneratedComponent → String,
      c.name ∉ Entries.names ((g.requested s).filterMap fun c =>
        (g.outcome source v options c).toOption.map fun d => (c.name, part d)) := by
    intro part hmem
    rw [names_made] at hmem
    obtain ⟨c', hc', hname⟩ := List.mem_map.1 hmem
    exact hother c' (List.mem_filter.1 hc').1 hname
  refine ⟨?_, ?_, ?_⟩
  · rw [hcomponents, Entries.get?_eq_none (hnames _)]
  · rw [hexamples, Entries.get?_eq_none (hnames _)]
  · rw [Transformation.failure?, hfailures, List.find?_eq_none]
    intro f hf hname
    obtain ⟨c', hc', hf⟩ := List.mem_filterMap.1 hf
    cases ho : g.outcome source v options c' with
    | ok d =>
      rw [ho] at hf
      cases hf
    | error e =>
      rw [ho] at hf
      cases hf
      exact hother c' hc' (by simpa using hname)

/-! ## Files -/

theorem get?_files (hv : s.validate = .ok v) (h : g.transform source s options = .ok t)
    (path : String) :
    t.files.get? path = Manifest.get? path (.ofFiles (g.emitted source s options v)) := by
  obtain ⟨v', hv', hfold⟩ := bind_eq_ok h
  obtain rfl := Except.ok.inj (hv.symm.trans (validate_eq_ok (mapError_eq_ok hv')))
  rw [← Except.ok.inj hfold, get?_foldl_record, emitted, Manifest.ofFiles, Manifest.putAll_append]
  rfl

/-- The files that are emitted for a component. -/
def own (g : Generator) (source : TemplateSource) (options : TransformOptions) (v : ValidatedSchema)
    (c : ComponentSpec) : List ManifestFile :=
  (g.made? source options v c).toList.flatMap fun x => g.files x.1 x.2

theorem own_of_not_writes (hs : c.supports g.platform.id)
    (h : ¬ g.Writes source options v path c) :
    (g.own source options v c).filter (·.path = path) = [] := by
  rw [List.filter_eq_nil_iff]
  intro f hf hpath
  cases ho : g.outcome source v options c with
  | error e =>
    rw [own, made?_eq_none ho] at hf
    cases hf
  | ok d =>
    obtain ⟨m, hm, -, -, -, hfiles⟩ := made?_eq_some ho
    have hf' : f ∈ g.files m d.code := by simpa [own, hm] using hf
    refine h ⟨hs, d, ho, ?_⟩
    rw [hfiles, Manifest.mem_paths_ofFiles]
    exact List.mem_map.2 ⟨f, hf', by simpa using hpath⟩

/-- What stands at a path is decided by the files that the components have there. -/
theorem get?_emitted_congr (h : ∀ c ∈ g.requested s, (g.own source options v c).filter
      (·.path = path) = (g.own source' options v c).filter (·.path = path)) :
    Manifest.get? path (.ofFiles (g.emitted source s options v)) =
      Manifest.get? path (.ofFiles (g.emitted source' s options v)) := by
  have hemitted : ∀ source : TemplateSource, g.emitted source s options v =
      g.sharedFiles v.tokens ++ (g.requested s).flatMap (g.own source options v) := by
    intro source
    rw [emitted, made, List.filterMap_eq_flatMap_toList, List.flatMap_assoc]
    rfl
  rw [Manifest.get?_ofFiles, Manifest.get?_ofFiles, Manifest.lastOf?, Manifest.lastOf?,
    ← List.head?_filter, ← List.head?_filter, List.filter_reverse, List.filter_reverse, hemitted,
    hemitted, List.filter_append, List.filter_append, List.filter_flatMap, List.filter_flatMap,
    List.flatMap_congr h]

/-! ## Two collections of templates -/

/-- What transformations `t` and `t'` have in common whose templates `a` and `b` differ at `p`. -/
structure Agree (g : Generator) (a b : Entries String) (p : String) (s : Schema)
    (options : TransformOptions) (v : ValidatedSchema) (t t' : Transformation) : Prop where
  tokens : t.tokens = t'.tokens
  theme : t.theme = t'.theme
  utilities : t.utilities = t'.utilities
  skipped : t.skipped = t'.skipped
  code : ∀ c ∈ s.components.values, ¬ g.LooksAt options v p c →
    t.components.get? c.name = t'.components.get? c.name
  usage : ∀ c ∈ s.components.values, ¬ g.LooksAt options v p c →
    t.examples.get? c.name = t'.examples.get? c.name
  failure : ∀ c ∈ s.components.values, ¬ g.LooksAt options v p c →
    t.failure? c.name = t'.failure? c.name
  files : ∀ path, (∀ c ∈ s.components.values, g.LooksAt options v p c →
      ¬ g.Writes (.collection a) options v path c ∧ ¬ g.Writes (.collection b) options v path c) →
    t.files.get? path = t'.files.get? path

theorem reports_congr (hv : s.validate = .ok v)
    (h : g.transform source s options = .ok t) (h' : g.transform source' s options = .ok t')
    (hc : c ∈ s.components.values) (houtcome : c.supports g.platform.id →
      g.outcome source v options c = g.outcome source' v options c) :
    t.components.get? c.name = t'.components.get? c.name ∧
      t.examples.get? c.name = t'.examples.get? c.name ∧
      t.failure? c.name = t'.failure? c.name := by
  by_cases hs : c.supports g.platform.id
  · have hr := reports hv h hc hs
    have hr' := reports hv h' hc hs
    rw [hr.code, hr.usage, hr.failure, hr'.code, hr'.usage, hr'.failure, houtcome hs]
    exact ⟨rfl, rfl, rfl⟩
  · obtain ⟨hcode, husage, hfailure⟩ := reports_none hv h hc hs
    obtain ⟨hcode', husage', hfailure'⟩ := reports_none hv h' hc hs
    exact ⟨hcode.trans hcode'.symm, husage.trans husage'.symm, hfailure.trans hfailure'.symm⟩

theorem agree (hab : SameBut p a b) (hv : s.validate = .ok v)
    (h : g.transform (.collection a) s options = .ok t)
    (h' : g.transform (.collection b) s options = .ok t') : Agree g a b p s options v t t' := by
  obtain ⟨v₁, hv₁, hemits⟩ := transform_emits h
  obtain ⟨v₂, hv₂, hemits'⟩ := transform_emits h'
  obtain ⟨-, -, -, -, -, hskipped⟩ := transform_eq_ok h
  obtain ⟨-, -, -, -, -, hskipped'⟩ := transform_eq_ok h'
  obtain rfl := Except.ok.inj (hv.symm.trans hv₁)
  obtain rfl := Except.ok.inj (hv.symm.trans hv₂)
  have hsaid := fun c (hc : c ∈ s.components.values) hlooks =>
    reports_congr hv h h' hc fun hs => outcome_congr hab hs hlooks
  exact {
    tokens := hemits.tokens.trans hemits'.tokens.symm
    theme := hemits.theme.trans hemits'.theme.symm
    utilities := hemits.utilities.trans hemits'.utilities.symm
    skipped := hskipped.trans hskipped'.symm
    code := fun c hc hlooks => (hsaid c hc hlooks).1
    usage := fun c hc hlooks => (hsaid c hc hlooks).2.1
    failure := fun c hc hlooks => (hsaid c hc hlooks).2.2
    files := fun path hpath => by
      rw [get?_files hv h, get?_files hv h']
      refine get?_emitted_congr fun c hc => ?_
      obtain ⟨hmem, hs⟩ := List.mem_filter.1 hc
      by_cases hlooks : g.LooksAt options v p c
      · obtain ⟨hwrites, hwrites'⟩ := hpath c hmem hlooks
        rw [own_of_not_writes hs hwrites, own_of_not_writes hs hwrites']
      · rw [own, own, made?, made?, outcome_congr hab hs hlooks] }

/-- Transformations of a schema whose templates differ at one path have everything in common but the
components that look for a template there, and the files of those. Each component that is valid and
has types on the platform follows the first template at its candidate places. -/
theorem transform_template (hab : SameBut p a b) :
    (∃ e, g.transform (.collection a) s options = .error e ∧
      g.transform (.collection b) s options = .error e) ∨
    ∃ v t t', s.validate = .ok v ∧ g.transform (.collection a) s options = .ok t ∧
      g.transform (.collection b) s options = .ok t' ∧ Agree g a b p s options v t t' ∧
      ∀ c ∈ s.components.values, c.supports g.platform.id → ¬ v.isInvalid c.name →
        t.Reports c (g.generate (.collection a) c options v.tokens) ∧
        ∀ m, g.model c options v.tokens = .ok m →
          Sourced g a m (g.generate (.collection a) c options v.tokens) := by
  cases hvalid : g.validate s with
  | error e =>
    refine .inl ⟨.schema e, ?_, ?_⟩ <;> rw [transform, hvalid] <;> rfl
  | ok v =>
    have hrun : ∀ source : TemplateSource, ∃ t, g.transform source s options = .ok t := by
      intro source
      rw [transform, hvalid]
      exact ⟨_, rfl⟩
    obtain ⟨t, ht⟩ := hrun (.collection a)
    obtain ⟨t', ht'⟩ := hrun (.collection b)
    have hv := validate_eq_ok hvalid
    refine .inr ⟨v, t, t', hv, ht, ht', agree hab hv ht ht', fun c hc hs hvc => ⟨?_, ?_⟩⟩
    · rw [← outcome_of_valid hvc]
      exact reports hv ht hc hs
    · exact fun m hm => sourced hm

/-- A template that breaks off. -/
def brokenTemplates : Entries String := [("css/layout/list.hbs", "\x7b\x7b#each props\x7d\x7d")]

/-- The broken template fails its own component. The other one is generated as without it. -/
theorem transform_template_listSchema : SameBut "css/layout/list.hbs" brokenTemplates [] ∧
    ∃ v t t', Css.generator.transform (.collection brokenTemplates) listSchema {} = .ok t ∧
      Css.generator.transform (.collection []) listSchema {} = .ok t' ∧
      t.components.names = ["ListItem"] ∧
      t.failures.map (fun f => (f.component, f.error.kind)) = [("List", "template_render")] ∧
      t'.components.names = ["List", "ListItem"] ∧
      Agree Css.generator brokenTemplates [] "css/layout/list.hbs" listSchema {} v t t' := by
  have hab : SameBut "css/layout/list.hbs" brokenTemplates [] := by
    intro path hpath
    exact if_neg (Ne.symm hpath)
  have h : ((Css.generator.transform (.collection brokenTemplates) listSchema {}).map (fun t =>
      (t.components.names, t.failures.map (fun f => (f.component, f.error.kind))))).toOption =
      some (["ListItem"], [("List", "template_render")]) := by decide +kernel
  have h' : (Css.generator.transform (.collection []) listSchema {}).map (·.components.names) =
      .ok ["List", "ListItem"] := rfl
  obtain ⟨e, he, -⟩ | ⟨v, t, t', -, ht, ht', hagree, -⟩ :=
    @transform_template Css.generator _ _ _ listSchema {} hab
  · rw [he] at h
    cases h
  · rw [ht] at h
    rw [ht'] at h'
    obtain ⟨hnames, hfailures⟩ := Prod.mk.inj (Option.some.inj h)
    exact ⟨hab, v, t, t', ht, ht', hnames, hfailures, Except.ok.inj h', hagree⟩

end Generator

end DesignSystem
