import DesignSystem.Proofs.Artifact
import DesignSystem.Proofs.Entries
import DesignSystem.Proofs.Generator.Paths

/-!
# The files of a component

A component comes with its source, and with what the platform has for it and the options ask for:
types, styles, a test, a story, and its texts for each locale. `g.wanted options m code kind` lists
the files of a kind.

* `Platform.nodup_ownPaths`: on no platform do two of these files have one path, localized texts
  apart.
* `Generator.nodup_paths_filesFor`: nor do localized texts take the path of another file, or of one
  another if the locales are distinct.
* `Generator.ofKind_filesFor`: the files of a kind.
* `Platform.assembles_wanted`: so the manifest of a component holds all of them.
-/

set_option autoImplicit false

namespace DesignSystem

/-! ## Paths that differ -/

/-- Texts that go on differently from the same beginning. -/
theorem nodup_of_endings (base : String) (endings : List String) (h : endings.Nodup) :
    (endings.map (base ++ ·)).Nodup := h.map fun _ _ => (String.append_right_inj base).1

/-- Texts that begin differently. -/
theorem nodup_of_beginnings (roots : List String) {texts : List String}
    (h : List.Forall₂ (fun root text => root.toList <+: text.toList) roots texts)
    (hroots : roots.Pairwise fun a b => ¬ a.toList <+: b.toList ∧ ¬ b.toList <+: a.toList) :
    texts.Nodup := by
  induction h with
  | nil => exact List.nodup_nil
  | cons hfirst hrest ih =>
    obtain ⟨hroot, hroots⟩ := List.pairwise_cons.1 hroots
    refine List.nodup_cons.2 ⟨fun hmem => ?_, ih hroots⟩
    obtain ⟨root, hmem, hother⟩ := exists_of_forall₂ hrest hmem
    exact ne_of_beginnings hfirst hother (hroot root hmem).1 (hroot root hmem).2 rfl

/-! ## The paths of a component on each platform -/

/-- The paths of the source of a component and of what may go with it, localized texts apart. -/
def Generator.ownPaths (g : Generator) (m : ComponentModel) : List String :=
  g.componentPath m :: (g.companions m).map (·.path)

/-- In a folder of the component's own, files differ by what follows its name. -/
theorem React.ownPaths_eq (m : ComponentModel) : generator.ownPaths m =
    (["." ++ extension m] ++ (if m.typed then [".types.ts"] else []) ++
      [".module.css", ".test." ++ extension m, ".stories." ++ extension m]).map
        (folder m ++ "/" ++ m.pascalName ++ ·) := by
  have htypes : (types m).toList.map (·.path) =
      (if m.typed then [".types.ts"] else []).map (folder m ++ "/" ++ m.pascalName ++ ·) := by
    unfold types
    split <;> rfl
  have hextension : ∀ ending, folder m ++ "/" ++ m.pascalName ++ ending ++ extension m =
      folder m ++ "/" ++ m.pascalName ++ (ending ++ extension m) := fun _ => String.append_assoc
  rw [List.map_append, List.map_append, ← htypes]
  simp only [List.map_cons, List.map_nil, ← hextension]
  rw [Generator.ownPaths, Generator.companions, List.map_append, List.map_append, List.map_append]
  simp only [List.append_assoc]
  rfl

theorem React.nodup_ownPaths (m : ComponentModel) : (generator.ownPaths m).Nodup := by
  rw [ownPaths_eq]
  refine nodup_of_endings _ _ ?_
  unfold extension
  cases m.typed <;> decide

theorem Vue.nodup_ownPaths (m : ComponentModel) : (generator.ownPaths m).Nodup :=
  nodup_of_endings (folder m ++ "/" ++ m.pascalName)
    [".vue", ".spec.ts", ".stories.ts"] (by decide)

theorem Svelte.nodup_ownPaths (m : ComponentModel) : (generator.ownPaths m).Nodup :=
  nodup_of_endings (folder m ++ "/" ++ m.pascalName)
    [".svelte", ".test.ts", ".stories.ts"] (by decide)

theorem Angular.nodup_ownPaths (m : ComponentModel) : (generator.ownPaths m).Nodup :=
  nodup_of_endings (folder m ++ "/" ++ m.kebabName)
    [".component.ts", ".component.scss", ".component.spec.ts", ".component.stories.ts"]
    (by decide)

theorem Flutter.nodup_ownPaths (m : ComponentModel) : (generator.ownPaths m).Nodup :=
  nodup_of_beginnings ["lib/components/", "test/components/", "widgetbook/lib/"]
    (.cons (prefix_component m) (.cons (prefix_append (prefix_append List.prefix_rfl _) _)
      (.cons (prefix_append (prefix_append List.prefix_rfl _) _) .nil))) (by decide)

theorem SwiftUI.nodup_ownPaths (m : ComponentModel) : (generator.ownPaths m).Nodup :=
  nodup_of_beginnings _ (.cons (prefix_component m) (.cons (prefix_companion (.head _)) .nil))
    (by decide)

theorem Compose.nodup_ownPaths (m : ComponentModel) : (generator.ownPaths m).Nodup :=
  nodup_of_beginnings _ (.cons (prefix_component m) (.cons (prefix_companion (.head _)) .nil))
    (by decide)

/-- On no platform do two files of a component have one path, localized texts apart. -/
theorem Platform.nodup_ownPaths (p : Platform) (m : ComponentModel) :
    (p.generator.ownPaths m).Nodup := by
  cases p with
  | react => exact React.nodup_ownPaths m
  | vue => exact Vue.nodup_ownPaths m
  | angular => exact Angular.nodup_ownPaths m
  | svelte => exact Svelte.nodup_ownPaths m
  | flutter => exact Flutter.nodup_ownPaths m
  | swiftUI => exact SwiftUI.nodup_ownPaths m
  | compose => exact Compose.nodup_ownPaths m
  | css | tailwind => exact List.nodup_singleton _

/-! ## Localized texts -/

theorem Generator.localePath_injective (m : ComponentModel) :
    Function.Injective fun locale => localePath locale m := by
  intro locale locale' h
  have hends : ∀ locale, localePath locale m =
      "locales/" ++ locale ++ ("/" ++ m.kebabName ++ ".json") := by
    intro locale
    rw [← String.append_assoc, ← String.append_assoc]
    rfl
  dsimp only at h
  rw [hends, hends] at h
  exact eq_of_append_eq h

theorem Generator.prefix_localePath (locale : String) (m : ComponentModel) :
    "locales/".toList <+: (localePath locale m).toList :=
  prefix_append (prefix_append (prefix_append (prefix_append List.prefix_rfl _) _) _) _

/-- Localized texts are kept apart from the other files of a component. -/
theorem Generator.Follows.ownPaths_ne {g : Generator} {l : FileLayout} (hl : g.Follows l)
    (hapart : l.IsApart) {m : ComponentModel} {path : String} (hpath : path ∈ g.ownPaths m)
    (locale : String) : path ≠ localePath locale m := by
  have hroot : ∃ root ∈ l.roots, root.toList <+: path.toList := by
    rcases List.mem_cons.1 hpath with rfl | hpath
    · exact hl.component m
    · obtain ⟨a, ha, rfl⟩ := List.mem_map.1 hpath
      exact hl.companion m a ha
  obtain ⟨root, hmem, hprefix⟩ := hroot
  obtain ⟨hroot, hlocales⟩ := hapart.locales root hmem
  exact ne_of_beginnings hprefix (prefix_localePath locale m) hroot hlocales

/-! ## The files that are asked for -/

namespace Generator

variable {g : Generator} {options : TransformOptions} {m : ComponentModel} {code : String}

/-- The files of a kind that a component comes with if `options` asks for them. -/
def wanted (g : Generator) (options : TransformOptions) (m : ComponentModel) (code : String) :
    ArtifactKind → List ManifestFile
  | .component => [⟨g.componentPath m, code, .component⟩]
  | .types => (g.types m).toList.map (·.as .types)
  | .styles => (g.styles m).toList.map (·.as .styles)
  | .test => if options.includeTests then (g.test m).toList.map (·.as .test) else []
  | .story => if options.includeStories then (g.story m).toList.map (·.as .story) else []
  | .locale => options.locales.map fun locale => ⟨localePath locale m, m.localeStub, .locale⟩
  | .tokens | .theme | .utility => []

theorem kind_of_mem_wanted {kind : ArtifactKind} {f : ManifestFile}
    (h : f ∈ g.wanted options m code kind) : f.kind = kind := by
  cases kind with
  | component => rw [List.mem_singleton.1 h]
  | types | styles | locale =>
    obtain ⟨_, -, rfl⟩ := List.mem_map.1 h
    rfl
  | test | story =>
    rw [wanted] at h
    split at h
    · obtain ⟨_, -, rfl⟩ := List.mem_map.1 h
      rfl
    · cases h
  | tokens | theme | utility => cases h

/-- The files of a component, kind by kind. -/
theorem filesFor_eq (g : Generator) (options : TransformOptions) (m : ComponentModel)
    (code : String) :
    g.filesFor options m code = ArtifactKind.all.flatMap (g.wanted options m code) := by
  have hmap : ∀ (kind : ArtifactKind) (a? : Option Artifact),
      (a?.map (·.as kind)).toList = a?.toList.map (·.as kind) := by
    intro kind a?
    cases a? <;> rfl
  simp only [filesFor, hmap, ArtifactKind.all, List.flatMap_cons, List.flatMap_nil, wanted]
  simp only [List.append_assoc, List.append_nil]

/-- The files of a kind are those that are wanted. -/
theorem ofKind_filesFor (kind : ArtifactKind) :
    Manifest.ofKind kind (g.filesFor options m code) = g.wanted options m code kind := by
  have hfilter : ∀ kind', (g.wanted options m code kind').filter (·.kind = kind) =
      if kind' = kind then g.wanted options m code kind else [] := by
    intro kind'
    split
    · next heq =>
      subst heq
      exact List.filter_eq_self.2 fun f hf => decide_eq_true (kind_of_mem_wanted hf)
    · next hne =>
      refine List.filter_eq_nil_iff.2 fun f hf hkind => hne ?_
      rw [← kind_of_mem_wanted hf, of_decide_eq_true hkind]
  rw [filesFor_eq, Manifest.ofKind, List.filter_flatMap]
  simp only [hfilter]
  cases kind <;> simp [ArtifactKind.all]

/-- The files that are wanted stand at paths of the component, and at the paths of its localized
texts. -/
theorem paths_filesFor (g : Generator) (options : TransformOptions) (m : ComponentModel)
    (code : String) : ∃ own, own.Sublist (g.ownPaths m) ∧
    Manifest.paths (g.filesFor options m code) =
      own ++ options.locales.map fun locale => localePath locale m := by
  have hsublist : ∀ (asked : Bool) (paths : List String),
      (if asked then paths else []).Sublist paths := by
    intro asked paths
    cases asked with
    | true => exact List.Sublist.refl _
    | false => exact List.nil_sublist _
  refine ⟨g.componentPath m :: ((g.types m).toList.map (·.path) ++
    (g.styles m).toList.map (·.path) ++
    (if options.includeTests then (g.test m).toList.map (·.path) else []) ++
    (if options.includeStories then (g.story m).toList.map (·.path) else [])), ?_, ?_⟩
  · rw [ownPaths, companions, List.map_append, List.map_append, List.map_append]
    exact (((List.Sublist.refl _).append (hsublist _ _)).append (hsublist _ _)).cons_cons _
  · rw [filesFor_eq]
    simp [Manifest.paths, ArtifactKind.all, wanted, apply_ite (List.map ManifestFile.path),
      Artifact.as, Function.comp_def]

theorem nodup_paths_filesFor {l : FileLayout} (hl : g.Follows l) (hapart : l.IsApart)
    (hown : (g.ownPaths m).Nodup) (hlocales : options.locales.Nodup) :
    (Manifest.paths (g.filesFor options m code)).Nodup := by
  obtain ⟨own, hsublist, hpaths⟩ := paths_filesFor g options m code
  rw [hpaths, List.nodup_append]
  refine ⟨hown.sublist hsublist, hlocales.map (localePath_injective m), ?_⟩
  intro path hpath path' hpath'
  obtain ⟨locale, -, rfl⟩ := List.mem_map.1 hpath'
  exact hl.ownPaths_ne hapart (hsublist.subset hpath) locale

end Generator

/-- **The files of a component do not replace one another.** On every platform, whatever the model
of the component, its source and the options are: if the locales are distinct, then the manifest
holds for each kind of file just what is wanted of it, and no two of its files have one path. -/
theorem Platform.assembles_wanted (p : Platform) (options : TransformOptions) (m : ComponentModel)
    (code : String) (hlocales : options.locales.Nodup) :
    (p.generator.assembleFor options m code).paths.Nodup ∧
    ∀ kind, (p.generator.assembleFor options m code).ofKind kind =
      p.generator.wanted options m code kind := by
  have hnodup : (Manifest.paths (p.generator.filesFor options m code)).Nodup :=
    Generator.nodup_paths_filesFor p.follows p.fileLayout_isApart (p.nodup_ownPaths m) hlocales
  rw [Generator.assembleFor, Manifest.ofFiles_of_nodup hnodup]
  exact ⟨hnodup, fun kind => Generator.ofKind_filesFor kind⟩

/-- A notice without props. -/
def plainNotice : ComponentModel where
  name := "Notice"
  pascalName := "Notice"
  camelName := "notice"
  kebabName := "notice"
  snakeName := "notice"
  category := .feedback
  description := none
  props := []
  declarations := []
  variants := []
  compounds := []
  accessibility := { role := "status" }
  options := {}
  platform := .react
  strings := [("name", "Notice")]
  tokens := []

/-- Two locales, and no stories. -/
def twoLocales : TransformOptions := { locales := ["en", "de"], includeStories := false }

theorem Platform.assembles_wanted_plainNotice : twoLocales.locales.Nodup ∧
    Manifest.ofKind .types (react.generator.assembleFor twoLocales plainNotice "") =
      [⟨"src/components/feedback/Notice/Notice.types.ts",
        "export interface NoticeProps \x7b\n  className?: string;\n\x7d\n", .types⟩] ∧
    Manifest.ofKind .story (react.generator.assembleFor twoLocales plainNotice "") = [] ∧
    Manifest.ofKind .locale (react.generator.assembleFor twoLocales plainNotice "") =
      [⟨"locales/en/notice.json", plainNotice.localeStub, .locale⟩,
        ⟨"locales/de/notice.json", plainNotice.localeStub, .locale⟩] := by
  have hlocales : twoLocales.locales.Nodup := by decide
  obtain ⟨-, hkinds⟩ := assembles_wanted .react twoLocales plainNotice "" hlocales
  rw [hkinds, hkinds, hkinds]
  exact ⟨hlocales, by decide, rfl, by decide⟩

end DesignSystem
