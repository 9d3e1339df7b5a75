import DesignSystem.Proofs.Artifact
import DesignSystem.Proofs.Component.Model
import DesignSystem.Proofs.Generation.Accounting
import DesignSystem.Proofs.Generator.Paths

/-!
# Which files a transformation keeps

The manifest of a transformation is put together from the files of the schema and of each component.
A later file takes the place of an earlier one of the same path.

* `Generator.transform_emits`: the manifest is made of all files that are emitted, the last one of
  each path.
* `Generator.mem_of_shared`: the files of the tokens, the theme and the utilities stay.
* `Generator.mem_of_component`: so does the file of a component that shares its path with no other.
* `Generator.transform_manifest`: each component has a file of its own just if no two of them share
  a path, and no two do if all are called differently in PascalCase.
-/

set_option autoImplicit false

namespace DesignSystem

variable {g : Generator} {source : TemplateSource} {s : Schema} {options : TransformOptions}
  {v : ValidatedSchema} {t : Transformation} {c : ComponentSpec} {m : ComponentModel}
  {tokens : FlatTokens} {f : ManifestFile} {l : FileLayout}

namespace Generator

/-! ## Files that are emitted -/

/-- The files of a schema that belong to no component. -/
def sharedFiles (g : Generator) (tokens : FlatTokens) : List ManifestFile :=
  (g.tokenFiles tokens).map (·.as .tokens) ++ [(g.theme tokens).as .theme] ++
    g.utilities.map (·.as .utility)

/-- A component that is generated, as its model and its source. -/
def made? (g : Generator) (source : TemplateSource) (options : TransformOptions)
    (v : ValidatedSchema) (c : ComponentSpec) : Option (ComponentModel × String) :=
  (g.outcome source v options c).toOption.bind fun d =>
    (g.model c options v.tokens).toOption.map fun m => (m, d.code)

/-- The components that are generated, in order. -/
def made (g : Generator) (source : TemplateSource) (s : Schema) (options : TransformOptions)
    (v : ValidatedSchema) : List (ComponentModel × String) :=
  (g.requested s).filterMap (g.made? source options v)

/-- All files that a transformation emits, in order. -/
def emitted (g : Generator) (source : TemplateSource) (s : Schema) (options : TransformOptions)
    (v : ValidatedSchema) : List ManifestFile :=
  g.sharedFiles v.tokens ++ (g.made source s options v).flatMap fun x => g.files x.1 x.2

theorem generate_eq_ok {d : GeneratedComponent} (h : g.generate source c options tokens = .ok d) :
    ∃ m, g.model c options tokens = .ok m ∧ d.files = .ofFiles (g.files m d.code) := by
  obtain ⟨m, hm, h⟩ := bind_eq_ok h
  obtain ⟨⟨code, origin⟩, -, h⟩ := bind_eq_ok h
  cases h
  exact ⟨m, hm, rfl⟩

theorem isPlain_name (h : c.issues = []) : Text.IsPlain c.name := by
  have hname := ComponentSpec.isPascalCase_name h
  unfold isPascalCase at hname
  unfold Text.IsPlain
  split at hname
  · cases hname
  · next first rest hchars =>
    obtain ⟨hfirst, hrest⟩ := Bool.and_eq_true_iff.1 hname
    have hplain : Text.isPlainAlphanumeric first := by
      change ((first.isUpper || first.isLower) || first.isDigit) = true
      rw [hfirst]
      rfl
    rw [hchars]
    exact List.forall_mem_cons.2 ⟨hplain, List.all_eq_true.1 hrest⟩

theorem model_isNamed (h : g.model c options tokens = .ok m) :
    m.IsNamed ∧ m.name = c.name ∧ m.options = options := by
  unfold model at h
  split at h
  · cases h
  · next hvalid =>
    obtain ⟨m', hm', rfl⟩ := map_eq_ok h
    obtain ⟨props, -, rfl⟩ := map_eq_ok (mapError_eq_ok hm')
    have hissues := ComponentSpec.issues_of_error? hvalid
    have hne : c.name ≠ "" := by
      intro hempty
      exact ComponentSpec.pascal_name_ne_empty hissues (by rw [hempty]; rfl)
    exact ⟨⟨isPlain_name hissues, hne, rfl, rfl, rfl⟩, rfl, rfl⟩

theorem made?_eq_none {e : GenerationError} (h : g.outcome source v options c = .error e) :
    g.made? source options v c = none := by
  rw [made?, h]
  rfl

theorem made?_eq_some {d : GeneratedComponent} (h : g.outcome source v options c = .ok d) :
    ∃ m, g.made? source options v c = some (m, d.code) ∧ m.IsNamed ∧ m.name = c.name ∧
      m.options = options ∧ d.files = .ofFiles (g.files m d.code) := by
  obtain ⟨m, hm, hfiles⟩ := generate_eq_ok (outcome_eq_ok.1 h).2
  refine ⟨m, ?_, (model_isNamed hm).1, (model_isNamed hm).2.1, (model_isNamed hm).2.2, hfiles⟩
  rw [made?, h, hm]
  rfl

theorem isNamed_of_made {x : ComponentModel × String} (h : x ∈ g.made source s options v) :
    x.1.IsNamed ∧ x.1.options = options := by
  obtain ⟨c, -, hc⟩ := List.mem_filterMap.1 h
  cases ho : g.outcome source v options c with
  | error e =>
    rw [made?_eq_none ho] at hc
    cases hc
  | ok d =>
    obtain ⟨m, hm, hnamed, -, hoptions, -⟩ := made?_eq_some ho
    rw [hm] at hc
    cases hc
    exact ⟨hnamed, hoptions⟩

/-! ## Recording files -/

/-- Recording components adds their files. -/
theorem get?_foldl_record (path : String) : ∀ (cs : List ComponentSpec) (t : Transformation),
    (cs.foldl (fun t c => t.record c.name (g.outcome source v options c)) t).files.get? path =
      (t.files.putAll ((cs.filterMap (g.made? source options v)).flatMap
        fun x => g.files x.1 x.2)).get? path
  | [], t => rfl
  | c :: cs, t => by
    rw [List.foldl_cons, get?_foldl_record path cs, List.filterMap_cons]
    cases ho : g.outcome source v options c with
    | error e => rw [made?_eq_none ho, Transformation.record]
    | ok d =>
      obtain ⟨m, hm, -, -, -, hfiles⟩ := made?_eq_some ho
      have hrecorded : (t.files.putAll d.files).get? path =
          (t.files.putAll (g.files m d.code)).get? path := by
        rw [hfiles, Manifest.get?_putAll_ofFiles]
      rw [hm, Transformation.record, List.flatMap_cons, Manifest.get?_putAll, hrecorded,
        ← Manifest.get?_putAll, ← Manifest.putAll_append]

theorem record_shared (t : Transformation) (component : String)
    (outcome : Except GenerationError GeneratedComponent) :
    (t.record component outcome).tokens = t.tokens ∧
      (t.record component outcome).theme = t.theme ∧
      (t.record component outcome).utilities = t.utilities ∧
      (t.files.paths.Nodup → (t.record component outcome).files.paths.Nodup) := by
  cases outcome with
  | ok d => exact ⟨rfl, rfl, rfl, Manifest.nodup_paths_putAll _⟩
  | error e => exact ⟨rfl, rfl, rfl, id⟩

theorem foldl_record_shared (outcome : ComponentSpec → Except GenerationError GeneratedComponent) :
    ∀ (cs : List ComponentSpec) (t : Transformation),
      (cs.foldl (fun t c => t.record c.name (outcome c)) t).tokens = t.tokens ∧
      (cs.foldl (fun t c => t.record c.name (outcome c)) t).theme = t.theme ∧
      (cs.foldl (fun t c => t.record c.name (outcome c)) t).utilities = t.utilities ∧
      (t.files.paths.Nodup →
        (cs.foldl (fun t c => t.record c.name (outcome c)) t).files.paths.Nodup)
  | [], t => ⟨rfl, rfl, rfl, id⟩
  | c :: cs, t => by
    obtain ⟨htokens, htheme, hutilities, hpaths⟩ := record_shared t c.name (outcome c)
    obtain ⟨htokens', htheme', hutilities', hpaths'⟩ :=
      foldl_record_shared outcome cs (t.record c.name (outcome c))
    exact ⟨htokens'.trans htokens, htheme'.trans htheme, hutilities'.trans hutilities,
      hpaths' ∘ hpaths⟩

/-- The components of a transformation by name. -/
theorem filterMap_made (cs : List ComponentSpec) :
    (cs.filterMap (g.made? source options v)).map (fun x => (x.1.name, x.2)) =
      cs.filterMap fun c =>
        (g.outcome source v options c).toOption.map fun d => (c.name, d.code) := by
  rw [List.map_filterMap]
  refine congrFun (congrArg List.filterMap (funext fun c => ?_)) cs
  cases ho : g.outcome source v options c with
  | error e => rw [made?_eq_none ho]; rfl
  | ok d =>
    obtain ⟨m, hm, -, hname, -⟩ := made?_eq_some ho
    rw [hm, ← hname]
    rfl

/-- What a transformation `t` of a checked schema is made of. -/
structure Emits (g : Generator) (source : TemplateSource) (s : Schema) (options : TransformOptions)
    (v : ValidatedSchema) (t : Transformation) : Prop where
  tokens : t.tokens = Artifact.entries (g.tokenFiles v.tokens)
  theme : t.theme = (g.theme v.tokens).content
  utilities : t.utilities = Artifact.entries g.utilities
  components : t.components = (g.made source s options v).map fun x => (x.1.name, x.2)
  names : t.components.names.Nodup
  /-- Of each path that is emitted the last file is kept. -/
  files : ∀ f, f ∈ t.files ↔ f ∈ Manifest.ofFiles (g.emitted source s options v)

theorem transform_emits (h : g.transform source s options = .ok t) :
    ∃ v, s.validate = .ok v ∧ Emits g source s options v t := by
  obtain ⟨v, hvalid, hcomponents, -⟩ := transform_eq_ok h
  obtain ⟨v', hv', hfold⟩ := bind_eq_ok h
  obtain rfl := Except.ok.inj (hvalid.symm.trans (validate_eq_ok (mapError_eq_ok hv')))
  obtain ⟨htokens, htheme, hutilities, hpaths⟩ := foldl_record_shared
    (g.outcome source v options) (g.requested s) (g.foundation s v.tokens)
  have hget := fun path =>
    @get?_foldl_record g source options v path (g.requested s) (g.foundation s v.tokens)
  rw [Except.ok.inj hfold] at htokens htheme hutilities hpaths hget
  refine ⟨v, hvalid, htokens, htheme, hutilities, ?_, ?_, fun f => ?_⟩
  · rw [hcomponents, made, filterMap_made]
  · rw [hcomponents, names_made]
    exact (Schema.validate_eq_ok hvalid).2.1.sublist
      ((List.filter_sublist.trans requested_sublist).map _)
  · rw [Manifest.mem_iff_get? (hpaths (Manifest.nodup_paths_ofFiles _)),
      Manifest.mem_iff_get? (Manifest.nodup_paths_ofFiles _), hget]
    rw [emitted, Manifest.ofFiles, Manifest.putAll_append]
    rfl

/-! ## Files that stay -/

/-- The files of a component: its source, and files of other kinds that are called otherwise. -/
theorem mem_files {code : String} (h : f ∈ g.files m code) :
    f = ⟨g.componentPath m, code, .component⟩ ∨ f.kind ≠ .component ∧
      ((∃ a ∈ g.companions m, a.path = f.path) ∨ "locales/".toList <+: f.path.toList) := by
  have hcompanion : ∀ (kind : ArtifactKind) {a? : Option Artifact}, kind ≠ .component →
      (∀ a, a? = some a → a ∈ g.companions m) → f ∈ (a?.map (·.as kind)).toList →
      f.kind ≠ .component ∧
        ((∃ a ∈ g.companions m, a.path = f.path) ∨ "locales/".toList <+: f.path.toList) := by
    intro kind a? hkind ha? hf
    obtain ⟨a, ha, rfl⟩ := Option.map_eq_some_iff.1 (Option.mem_toList.1 hf)
    exact ⟨hkind, .inl ⟨a, ha? a ha, rfl⟩⟩
  simp only [files, filesFor, List.mem_append, List.mem_singleton] at h
  rcases h with ((((h | h) | h) | h) | h) | h
  · exact .inl h
  · exact .inr (hcompanion .types (by decide) (fun a ha => mem_companions.2 (.inl ha)) h)
  · exact .inr (hcompanion .styles (by decide) (fun a ha => mem_companions.2 (.inr (.inl ha))) h)
  · split at h
    · exact .inr
        (hcompanion .test (by decide) (fun a ha => mem_companions.2 (.inr (.inr (.inl ha)))) h)
    · cases h
  · split at h
    · exact .inr
        (hcompanion .story (by decide) (fun a ha => mem_companions.2 (.inr (.inr (.inr ha)))) h)
    · cases h
  · obtain ⟨locale, -, rfl⟩ := List.mem_map.1 h
    have hkind : ArtifactKind.locale ≠ .component := by decide
    exact .inr ⟨hkind, .inr (prefix_append (prefix_append (prefix_append
      (prefix_append List.prefix_rfl _) _) _) _)⟩

/-- A file that is emitted belongs to no component, or is the source of a component, or goes with
one. -/
theorem mem_emitted (h : f ∈ g.emitted source s options v) :
    f ∈ g.sharedFiles v.tokens ∨ ∃ x ∈ g.made source s options v,
      f = ⟨g.componentPath x.1, x.2, .component⟩ ∨ f.kind ≠ .component ∧
        ((∃ a ∈ g.companions x.1, a.path = f.path) ∨ "locales/".toList <+: f.path.toList) := by
  rcases List.mem_append.1 h with h | h
  · exact .inl h
  · obtain ⟨x, hx, hf⟩ := List.mem_flatMap.1 h
    exact .inr ⟨x, hx, mem_files hf⟩

theorem mem_emitted_of_shared (h : f ∈ g.sharedFiles v.tokens) :
    f ∈ g.emitted source s options v := List.mem_append_left _ h

theorem mem_emitted_of_made {x : ComponentModel × String} (h : x ∈ g.made source s options v) :
    ⟨g.componentPath x.1, x.2, .component⟩ ∈ g.emitted source s options v :=
  List.mem_append_right _ (List.mem_flatMap.2 ⟨x, h, by simp [files, filesFor]⟩)

theorem paths_sharedFiles (hl : g.Follows l) (tokens : FlatTokens) :
    (g.sharedFiles tokens).map (·.path) = l.shared := by
  rw [← hl.shared tokens, sharedFiles, List.map_append, List.map_append, List.map_map,
    List.map_map]
  rfl

theorem kind_sharedFiles (h : f ∈ g.sharedFiles tokens) : f.kind ≠ .component := by
  have hkinds : ArtifactKind.tokens ≠ .component ∧ ArtifactKind.theme ≠ .component ∧
      ArtifactKind.utility ≠ .component := by decide
  simp only [sharedFiles, List.mem_append, List.mem_map, List.mem_singleton] at h
  rcases h with (⟨a, -, rfl⟩ | rfl) | ⟨a, -, rfl⟩
  · exact hkinds.1
  · exact hkinds.2.1
  · exact hkinds.2.2

/-- Where the files of components stand. -/
theorem prefix_of_made (hl : g.Follows l) {x : ComponentModel × String}
    (h : f = ⟨g.componentPath x.1, x.2, .component⟩ ∨ f.kind ≠ .component ∧
      ((∃ a ∈ g.companions x.1, a.path = f.path) ∨ "locales/".toList <+: f.path.toList)) :
    ∃ root ∈ "locales/" :: l.roots, root.toList <+: f.path.toList := by
  rcases h with rfl | ⟨-, ⟨a, ha, hpath⟩ | hlocale⟩
  · obtain ⟨root, hroot, hprefix⟩ := hl.component x.1
    exact ⟨root, .tail _ hroot, hprefix⟩
  · obtain ⟨root, hroot, hprefix⟩ := hl.companion x.1 a ha
    exact ⟨root, .tail _ hroot, hpath ▸ hprefix⟩
  · exact ⟨_, .head _, hlocale⟩

/-- The files of the tokens, the theme and the utilities stay. -/
theorem mem_of_shared (hl : g.Follows l) (hapart : l.IsApart) (hf : f ∈ g.sharedFiles v.tokens) :
    f ∈ Manifest.ofFiles (g.emitted source s options v) := by
  have hshared : ∀ f ∈ g.sharedFiles v.tokens, f.path ∈ l.shared := by
    intro f hf
    rw [← paths_sharedFiles hl v.tokens]
    exact List.mem_map_of_mem hf
  refine Manifest.mem_ofFiles_of_unique (mem_emitted_of_shared hf) fun f' hf' hpath => ?_
  rcases mem_emitted hf' with hf' | ⟨x, -, hx⟩
  · have hnodup := hapart.nodup
    rw [← paths_sharedFiles hl v.tokens] at hnodup
    exact List.inj_on_of_nodup_map hnodup hf' hf hpath
  · obtain ⟨root, hroot, hprefix⟩ := prefix_of_made hl hx
    exact absurd (hpath ▸ hprefix) (hapart.shared _ (hshared f hf) root hroot)

/-- The file of a component that shares its path with no other one stays. -/
theorem mem_of_component (hl : g.Follows l) (hapart : l.IsApart) {x : ComponentModel × String}
    (hx : x ∈ g.made source s options v)
    (h : ∀ y ∈ g.made source s options v, g.componentPath y.1 = g.componentPath x.1 → y = x) :
    ⟨g.componentPath x.1, x.2, .component⟩ ∈ Manifest.ofFiles (g.emitted source s options v) := by
  obtain ⟨root, hroot, hcomponent⟩ := hl.component x.1
  refine Manifest.mem_ofFiles_of_unique (mem_emitted_of_made hx) fun f hf hpath => ?_
  change f.path = g.componentPath x.1 at hpath
  rcases mem_emitted hf with hf | ⟨y, hy, rfl | ⟨-, ⟨a, ha, hcompanion⟩ | hlocale⟩⟩
  · have hshared : f.path ∈ l.shared := by
      rw [← paths_sharedFiles hl v.tokens]
      exact List.mem_map_of_mem hf
    exact absurd (hpath ▸ hcomponent) (hapart.shared _ hshared root (.tail _ hroot))
  · rw [h y hy hpath]
  · exact absurd (hcompanion.trans hpath)
      (hl.apart y.1 x.1 (isNamed_of_made hy).1 (isNamed_of_made hx).1 a ha)
  · obtain ⟨hroot', hlocales⟩ := hapart.locales root hroot
    exact absurd hpath (ne_of_beginnings hlocale hcomponent hlocales hroot')

/-- The file of a component is one that was emitted for a component. -/
theorem exists_made_of_mem (hf : f ∈ Manifest.ofFiles (g.emitted source s options v))
    (hkind : f.kind = .component) :
    ∃ x ∈ g.made source s options v, f = ⟨g.componentPath x.1, x.2, .component⟩ := by
  rcases mem_emitted (Manifest.mem_of_mem_ofFiles hf) with hf | ⟨x, hx, hf | ⟨hother, -⟩⟩
  · exact absurd hkind (kind_sharedFiles hf)
  · exact ⟨x, hx, hf⟩
  · exact absurd hkind hother

end Generator

/-! ## Manifests of transformations -/

/-- The files that belong to no component stand in the manifest, with their contents. -/
structure Transformation.KeepsShared (t : Transformation) : Prop where
  tokens : ∀ path content, (path, content) ∈ t.tokens → ⟨path, content, .tokens⟩ ∈ t.files
  theme : ∃ path, ⟨path, t.theme, .theme⟩ ∈ t.files
  utilities : ∀ path content, (path, content) ∈ t.utilities → ⟨path, content, .utility⟩ ∈ t.files

/-- Each component has a file of its own, with its source. -/
def Transformation.KeepsComponents (t : Transformation) : Prop :=
  ∃ path : String → String,
    (∀ name code, (name, code) ∈ t.components → ⟨path name, code, .component⟩ ∈ t.files) ∧
      ∀ name ∈ t.components.names, ∀ name' ∈ t.components.names,
        path name = path name' → name = name'

namespace Generator

theorem Emits.keepsShared (h : Emits g source s options v t) (hl : g.Follows l)
    (hapart : l.IsApart) : t.KeepsShared := by
  have hkeeps : ∀ f ∈ g.sharedFiles v.tokens, f ∈ t.files :=
    fun f hf => (h.files f).2 (mem_of_shared hl hapart hf)
  have hentries : ∀ {artifacts : List Artifact} {path content : String},
      (path, content) ∈ Artifact.entries artifacts → ⟨path, content⟩ ∈ artifacts := by
    intro artifacts path content hmem
    obtain ⟨a, ha, haeq⟩ := List.mem_map.1 (Entries.mem_ofList hmem)
    cases haeq
    exact ha
  constructor
  · intro path content hmem
    rw [h.tokens] at hmem
    refine hkeeps _ ?_
    simp only [sharedFiles, List.mem_append]
    exact .inl (.inl (List.mem_map.2 ⟨_, hentries hmem, rfl⟩))
  · refine ⟨(g.theme v.tokens).path, hkeeps _ ?_⟩
    rw [h.theme]
    simp only [sharedFiles, List.mem_append]
    exact .inl (.inr List.mem_cons_self)
  · intro path content hmem
    rw [h.utilities] at hmem
    refine hkeeps _ ?_
    simp only [sharedFiles, List.mem_append]
    exact .inr (List.mem_map.2 ⟨_, hentries hmem, rfl⟩)

theorem Emits.names_eq (h : Emits g source s options v t) :
    t.components.names = (g.made source s options v).map fun x => x.1.name := by
  rw [h.components, Entries.names, List.map_map]
  rfl

/-- Components that have files of their own have paths of their own: a file of a component stands at
one of these paths, so there are as many paths as names. -/
theorem Emits.nodup_paths (h : Emits g source s options v t) (hkeeps : t.KeepsComponents) :
    ((g.made source s options v).map fun x => g.componentPath x.1).Nodup := by
  obtain ⟨path, hpath, hinj⟩ := hkeeps
  have hsubset : t.components.names.map path ⊆
      (g.made source s options v).map fun x => g.componentPath x.1 := by
    intro p hp
    obtain ⟨name, hname, rfl⟩ := List.mem_map.1 hp
    obtain ⟨⟨name, code⟩, hmem, rfl⟩ := List.mem_map.1 hname
    obtain ⟨x, hx, hfile⟩ := exists_made_of_mem ((h.files _).1 (hpath name code hmem)) rfl
    exact List.mem_map.2 ⟨x, hx, (congrArg ManifestFile.path hfile).symm⟩
  have hnodup : (t.components.names.map path).Nodup := List.Nodup.map_on hinj h.names
  refine ((hnodup.subperm hsubset).perm_of_length_le ?_).nodup hnodup
  rw [h.names_eq]
  simp

theorem Emits.keepsComponents (h : Emits g source s options v t) (hl : g.Follows l)
    (hapart : l.IsApart)
    (hnodup : ((g.made source s options v).map fun x => g.componentPath x.1).Nodup) :
    t.KeepsComponents := by
  have hpaths := List.inj_on_of_nodup_map hnodup
  have hnames := h.names
  rw [h.names_eq] at hnames
  have hown := List.inj_on_of_nodup_map hnames
  -- the path of a component by its name
  let path (name : String) : String :=
    (((g.made source s options v).find? (·.1.name = name)).map (g.componentPath ·.1)).getD ""
  have hpath : ∀ x ∈ g.made source s options v, path x.1.name = g.componentPath x.1 := by
    intro x hx
    cases hfind : (g.made source s options v).find? (·.1.name = x.1.name) with
    | none => simpa using List.find?_eq_none.1 hfind x hx
    | some y =>
      have hname : y.1.name = x.1.name := by simpa using List.find?_some hfind
      obtain rfl := hown (List.mem_of_find?_eq_some hfind) hx hname
      simp [path, hfind]
  refine ⟨path, fun name code hmem => ?_, ?_⟩
  · rw [h.components] at hmem
    obtain ⟨x, hx, hxeq⟩ := List.mem_map.1 hmem
    cases hxeq
    rw [hpath x hx, h.files]
    exact mem_of_component hl hapart hx fun y hy hsame => hpaths hy hx hsame
  · intro name hname name' hname' hsame
    rw [h.names_eq] at hname hname'
    obtain ⟨x, hx, rfl⟩ := List.mem_map.1 hname
    obtain ⟨y, hy, rfl⟩ := List.mem_map.1 hname'
    rw [hpath x hx, hpath y hy] at hsame
    rw [hpaths hx hy hsame]

/-- Components that are called differently in PascalCase go to different paths. -/
theorem Emits.nodup_paths_of_pascal {p : Platform} (h : Emits p.generator source s options v t)
    (hpascal : (t.components.names.map Text.pascal).Nodup) :
    ((p.generator.made source s options v).map fun x => p.generator.componentPath x.1).Nodup := by
  rw [h.names_eq, List.map_map] at hpascal
  have hnodup : (p.generator.made source s options v).Nodup := hpascal.of_map _
  refine hnodup.map_on fun x hx y hy hsame => ?_
  obtain ⟨hxnamed, hxoptions⟩ := isNamed_of_made hx
  obtain ⟨hynamed, hyoptions⟩ := isNamed_of_made hy
  refine List.inj_on_of_nodup_map hpascal hx hy (p.pascal_eq_of_stem_eq hxnamed hynamed ?_)
  exact p.follows.stem _ _ hxnamed hynamed (hxoptions.trans hyoptions.symm) hsame

/-- The files that belong to no component stand in the manifest of a transformation. Each component
has a file of its own there just if no two that are generated go to the same path, and no two do if
all are called differently in PascalCase. -/
theorem transform_manifest (p : Platform) (h : p.generator.transform source s options = .ok t) :
    t.KeepsShared ∧ (∃ v, s.validate = .ok v ∧
      t.components = (p.generator.made source s options v).map (fun x => (x.1.name, x.2)) ∧
      (t.KeepsComponents ↔ ((p.generator.made source s options v).map
        fun x => p.generator.componentPath x.1).Nodup)) ∧
      ((t.components.names.map Text.pascal).Nodup → t.KeepsComponents) := by
  obtain ⟨v, hvalid, hemits⟩ := transform_emits h
  have hkeeps := hemits.keepsComponents p.follows p.fileLayout_isApart
  refine ⟨hemits.keepsShared p.follows p.fileLayout_isApart, ⟨v, hvalid, hemits.components, ?_⟩, ?_⟩
  · exact ⟨hemits.nodup_paths, hkeeps⟩
  · exact fun hpascal => hkeeps (hemits.nodup_paths_of_pascal hpascal)

/-- A list and its items. -/
def listSchema : Schema where
  id := "acme"
  components := [
    ("List", { name := "List", category := .layout, accessibility := { role := "list" } }),
    ("ListItem",
      { name := "ListItem", category := .layout, accessibility := { role := "listitem" } })]

theorem transform_manifest_listSchema : ∃ t,
    Platform.css.generator.transform .empty listSchema {} = .ok t ∧
      t.components.names = ["List", "ListItem"] ∧ (t.components.names.map Text.pascal).Nodup ∧
      t.KeepsShared ∧ t.KeepsComponents := by
  have h : (Platform.css.generator.transform .empty listSchema {}).map (·.components.names) =
      .ok ["List", "ListItem"] := rfl
  obtain ⟨t, ht, hnames⟩ := map_eq_ok h
  obtain ⟨hshared, -, hkeeps⟩ := transform_manifest .css ht
  have hnodup : (t.components.names.map Text.pascal).Nodup := by
    rw [hnames]
    decide +kernel
  exact ⟨t, ht, hnames, hnodup, hshared, hkeeps hnodup⟩

/-- Two components whose names are cut into the same words. -/
def sameWordsSchema : Schema where
  id := "acme"
  components := [
    ("URLBar",
      { name := "URLBar", category := .navigation, accessibility := { role := "search" } }),
    ("UrlBar",
      { name := "UrlBar", category := .navigation, accessibility := { role := "link" } })]

/-- The file of the second component takes the place of that of the first. -/
theorem transform_manifest_sameWordsSchema : ∃ t,
    Platform.css.generator.transform .empty sameWordsSchema {} = .ok t ∧
      t.components.names = ["URLBar", "UrlBar"] ∧ t.isComplete ∧ t.skipped = [] ∧
      Manifest.paths (t.files.ofKind .component) = ["components/url-bar.css"] ∧
      ¬ t.KeepsComponents := by
  have h : (Platform.css.generator.transform .empty sameWordsSchema {}).map (fun t =>
      (t.components.names, t.isComplete, t.skipped, Manifest.paths (t.files.ofKind .component))) =
      .ok (["URLBar", "UrlBar"], true, [], ["components/url-bar.css"]) := rfl
  obtain ⟨t, ht, hparts⟩ := map_eq_ok h
  simp only [Prod.mk.injEq] at hparts
  obtain ⟨hnames, hcomplete, hskipped, hpaths⟩ := hparts
  refine ⟨t, ht, hnames, hcomplete, hskipped, hpaths, ?_⟩
  rintro ⟨path, hpath, hinj⟩
  -- both components would have their file at the one path
  have hone : ∀ name ∈ t.components.names, path name = "components/url-bar.css" := by
    intro name hname
    obtain ⟨⟨name, code⟩, hmem, rfl⟩ := List.mem_map.1 hname
    have hfile : path name ∈ Manifest.paths (t.files.ofKind .component) :=
      List.mem_map.2 ⟨_, List.mem_filter.2 ⟨hpath name code hmem, rfl⟩, rfl⟩
    rw [hpaths] at hfile
    exact List.mem_singleton.1 hfile
  have hfirst : "URLBar" ∈ t.components.names := by simp [hnames]
  have hsecond : "UrlBar" ∈ t.components.names := by simp [hnames]
  have hsame := hinj _ hfirst _ hsecond ((hone _ hfirst).trans (hone _ hsecond).symm)
  exact absurd hsame (by decide)

end Generator

end DesignSystem
