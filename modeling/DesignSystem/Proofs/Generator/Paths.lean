import DesignSystem.Assembly
import DesignSystem.Generator.Platform
import DesignSystem.Proofs.Text.Plain

/-!
# Where files go

Each platform has a layout: which folders hold the files of components, where everything else goes,
and which style of a component's name its file is called by.

* `append_cons_inj`: the last segment of a path.
* `Generator.Follows`: what the paths of a generator have to do with a layout.
* `Platform.follows`: the generators of all platforms follow their layouts.
* `Platform.pascal_eq_of_stem_eq`: files that are called the same belong to components that are
  called the same in PascalCase.
-/

set_option autoImplicit false

namespace DesignSystem

/-! ## Paths -/

/-- Where a text is cut by its last separator, both parts are determined. -/
theorem append_cons_inj {c : Char} {xs ys as bs : List Char} (ha : c ∉ as) (hb : c ∉ bs)
    (h : xs ++ c :: as = ys ++ c :: bs) : xs = ys ∧ as = bs := by
  rcases List.append_eq_append_iff.1 h with ⟨ds, rfl, hds⟩ | ⟨ds, rfl, hds⟩
  all_goals
    cases ds with
    | nil => simp_all
    | cons d ds =>
      obtain ⟨rfl, rfl⟩ := List.cons.inj hds
      simp_all

theorem prefix_append {root s : String} (h : root.toList <+: s.toList) (t : String) :
    root.toList <+: (s ++ t).toList := by
  rw [String.toList_append]
  exact h.trans (List.prefix_append _ _)

/-- Texts with different endings are different. -/
theorem append_ne_append {x y a b : String} (hab : ¬ a.toList <:+ b.toList)
    (hba : ¬ b.toList <:+ a.toList) : x ++ a ≠ y ++ b := by
  intro h
  have hx : a.toList <:+ (x ++ a).toList := by
    rw [String.toList_append]
    exact List.suffix_append _ _
  have hy : b.toList <:+ (x ++ a).toList := by
    rw [h, String.toList_append]
    exact List.suffix_append _ _
  exact (List.suffix_or_suffix_of_suffix hx hy).elim hab hba

/-- Texts with different beginnings are different. -/
theorem ne_of_beginnings {root root' s t : String} (hs : root.toList <+: s.toList)
    (ht : root'.toList <+: t.toList) (h : ¬ root.toList <+: root'.toList)
    (h' : ¬ root'.toList <+: root.toList) : s ≠ t := by
  rintro rfl
  exact (List.prefix_or_prefix_of_prefix hs ht).elim h h'

/-! ## Layouts -/

/-- A model of a component whose name has passed validation. -/
structure ComponentModel.IsNamed (m : ComponentModel) : Prop where
  plain : Text.IsPlain m.name
  ne_empty : m.name ≠ ""
  pascal : m.pascalName = Text.pascal m.name
  kebab : m.kebabName = Text.kebab m.name
  snake : m.snakeName = Text.snake m.name

/-- Where the files of a platform go. -/
structure FileLayout where
  /-- The folders that hold the files of components and nothing else. -/
  roots : List String
  /-- The paths of the files that belong to no component. -/
  shared : List String
  /-- What the file of a component is called, apart from its extension. -/
  stem : ComponentModel → String

/-- No file that belongs to no component is in a folder of components or of localized texts, no two
of them have one path, and localized texts are in a folder of their own. -/
structure FileLayout.IsApart (l : FileLayout) : Prop where
  nodup : l.shared.Nodup
  shared : ∀ path ∈ l.shared, ∀ root ∈ "locales/" :: l.roots, ¬ root.toList <+: path.toList
  locales : ∀ root ∈ l.roots,
    ¬ root.toList <+: "locales/".toList ∧ ¬ "locales/".toList <+: root.toList

/-- The texts that may go with the source of a component, but for localized ones. -/
def Generator.companions (g : Generator) (m : ComponentModel) : List Artifact :=
  (g.types m).toList ++ (g.styles m).toList ++ (g.test m).toList ++ (g.story m).toList

theorem Generator.mem_companions {g : Generator} {m : ComponentModel} {a : Artifact} :
    a ∈ g.companions m ↔
      g.types m = some a ∨ g.styles m = some a ∨ g.test m = some a ∨ g.story m = some a := by
  simp [companions]

/-- The paths of a generator are those of a layout. -/
structure Generator.Follows (g : Generator) (l : FileLayout) : Prop where
  component : ∀ m, ∃ root ∈ l.roots, root.toList <+: (g.componentPath m).toList
  companion : ∀ m, ∀ a ∈ g.companions m, ∃ root ∈ l.roots, root.toList <+: a.path.toList
  /-- No companion takes the path of a component. -/
  apart : ∀ m m', m.IsNamed → m'.IsNamed → ∀ a ∈ g.companions m, a.path ≠ g.componentPath m'
  shared : ∀ ts, (g.tokenFiles ts).map (·.path) ++ [(g.theme ts).path] ++
    g.utilities.map (·.path) = l.shared
  stem : ∀ m m', m.IsNamed → m'.IsNamed → m.options = m'.options →
    g.componentPath m = g.componentPath m' → l.stem m = l.stem m'

namespace ComponentModel.IsNamed

variable {m : ComponentModel} {c : Char}

theorem notMem_pascal (h : m.IsNamed) (hc : Text.isPlainAlphanumeric c = false) :
    c ∉ m.pascalName.toList := by
  rw [h.pascal]
  exact Text.notMem_pascal h.plain hc

theorem notMem_kebab (h : m.IsNamed) (hc : Text.isPlainAlphanumeric c = false) (hne : c ≠ '-') :
    c ∉ m.kebabName.toList := by
  rw [h.kebab]
  exact Text.notMem_kebab h.plain hc hne

theorem notMem_snake (h : m.IsNamed) (hc : Text.isPlainAlphanumeric c = false) (hne : c ≠ '_') :
    c ∉ m.snakeName.toList := by
  rw [h.snake]
  exact Text.notMem_snake h.plain hc hne

end ComponentModel.IsNamed

/-- Files that are called by the same extension in folders have the same path only if they are
called the same. -/
theorem stem_eq_of_path_eq {front front' stem stem' extension : String}
    (hstem : '/' ∉ stem.toList) (hstem' : '/' ∉ stem'.toList) (hextension : '/' ∉ extension.toList)
    (h : front ++ "/" ++ stem ++ extension = front' ++ "/" ++ stem' ++ extension) :
    stem = stem' := by
  have hlist := congrArg String.toList h
  simp only [String.toList_append, List.append_assoc] at hlist
  have hslash : "/".toList = ['/'] := rfl
  rw [hslash, List.singleton_append, List.singleton_append] at hlist
  have hlast := (append_cons_inj (by simp [hstem, hextension]) (by simp [hstem', hextension]) hlist).2
  exact String.toList_inj.1 (List.append_cancel_right hlast)

/-- What stands between the same texts is the same. -/
theorem eq_of_append_eq {a s t b : String} (h : a ++ s ++ b = a ++ t ++ b) : s = t := by
  have hlist := congrArg String.toList h
  simp only [String.toList_append, List.append_assoc] at hlist
  exact String.toList_inj.1 (List.append_cancel_right (List.append_cancel_left hlist))

/-! ## React -/

/-- The layout of React sources. -/
def React.fileLayout : FileLayout where
  roots := ["src/components/"]
  shared := ["src/styles/tokens.css", "src/theme/tokens.ts", "src/theme/ThemeProvider.tsx",
    "src/lib/cx.ts"]
  stem := ComponentModel.pascalName

theorem React.prefix_folder (m : ComponentModel) :
    "src/components/".toList <+: (folder m).toList :=
  prefix_append (prefix_append (prefix_append List.prefix_rfl _) _) _

/-- The number of dots in a path. -/
def dots (path : String) : Nat := path.toList.count '.'

theorem dots_append (s t : String) : dots (s ++ t) = dots s + dots t := by
  rw [dots, String.toList_append, List.count_append]
  rfl

theorem React.dots_folder {m : ComponentModel} (h : m.IsNamed) :
    dots (folder m) = 0 ∧ dots m.pascalName = 0 := by
  have hpascal : dots m.pascalName = 0 := List.count_eq_zero.2 (h.notMem_pascal rfl)
  have hcategory : dots m.category.name = 0 := by cases m.category <;> decide
  refine ⟨?_, hpascal⟩
  change dots ("src/components/" ++ m.category.name ++ "/" ++ m.pascalName) = 0
  rw [dots_append, dots_append, dots_append, hpascal, hcategory]
  decide

theorem React.dots_extension (m : ComponentModel) : dots (extension m) = 0 := by
  unfold extension
  split <;> decide

theorem React.dots_component {m : ComponentModel} (h : m.IsNamed) :
    dots (generator.componentPath m) = 1 := by
  obtain ⟨hfolder, hpascal⟩ := dots_folder h
  change dots (folder m ++ "/" ++ m.pascalName ++ "." ++ extension m) = 1
  rw [dots_append, dots_append, dots_append, dots_append, hfolder, hpascal, dots_extension]
  decide

theorem React.exists_of_companion {m : ComponentModel} {a : Artifact}
    (h : a ∈ generator.companions m) :
    ∃ ending, a.path = folder m ++ "/" ++ m.pascalName ++ ending ∧ dots ending = 2 := by
  have hextension : ∀ ending, dots ending = 2 → dots (ending ++ extension m) = 2 := by
    intro ending hending
    rw [dots_append, hending, dots_extension]
  rcases Generator.mem_companions.1 h with h | h | h | h
  · change types m = some a at h
    unfold types at h
    split at h
    · cases h
      exact ⟨".types.ts", rfl, by decide⟩
    · cases h
  · cases h
    exact ⟨".module.css", rfl, by decide⟩
  · cases h
    exact ⟨".test." ++ extension m, (String.append_assoc).symm ▸ rfl, hextension _ (by decide)⟩
  · cases h
    exact ⟨".stories." ++ extension m, (String.append_assoc).symm ▸ rfl, hextension _ (by decide)⟩

theorem React.follows : generator.Follows fileLayout where
  component m := ⟨_, List.mem_cons_self,
    prefix_append (prefix_append (prefix_append (prefix_append (prefix_folder m) _) _) _) _⟩
  companion m a ha := by
    obtain ⟨ending, hpath, -⟩ := exists_of_companion ha
    refine ⟨_, List.mem_cons_self, ?_⟩
    rw [hpath]
    exact prefix_append (prefix_append (prefix_append (prefix_folder m) _) _) _
  apart m m' hm hm' a ha := by
    intro hpath
    obtain ⟨ending, hending, hdots⟩ := exists_of_companion ha
    obtain ⟨hfolder, hpascal⟩ := dots_folder hm
    have hslash : dots "/" = 0 := by decide
    have hcount := dots_component hm'
    rw [← hpath, hending, dots_append, dots_append, dots_append, hfolder, hpascal, hdots,
      hslash] at hcount
    omega
  shared ts := rfl
  stem m m' hm hm' hoptions h := by
    have hextension : extension m = extension m' := by
      unfold extension ComponentModel.typed
      rw [hoptions]
    change folder m ++ "/" ++ m.pascalName ++ "." ++ extension m =
      folder m' ++ "/" ++ m'.pascalName ++ "." ++ extension m' at h
    have h' : folder m ++ "/" ++ m.pascalName ++ ("." ++ extension m') =
        folder m' ++ "/" ++ m'.pascalName ++ ("." ++ extension m') := by
      rw [hextension] at h
      simpa only [String.append_assoc] using h
    refine stem_eq_of_path_eq (hm.notMem_pascal rfl) (hm'.notMem_pascal rfl) ?_ h'
    unfold extension
    split <;> decide

/-! ## Vue -/

/-- The layout of Vue sources. -/
def Vue.fileLayout : FileLayout where
  roots := ["src/components/"]
  shared := ["src/styles/tokens.css", "src/theme/tokens.ts", "src/plugins/theme.ts", "src/lib/cx.ts",
    "src/composables/useTheme.ts"]
  stem := ComponentModel.pascalName

theorem Vue.prefix_folder (m : ComponentModel) : "src/components/".toList <+: (folder m).toList :=
  prefix_append List.prefix_rfl _

theorem Vue.follows : generator.Follows fileLayout where
  component m := ⟨_, List.mem_cons_self,
    prefix_append (prefix_append (prefix_append (prefix_folder m) _) _) _⟩
  companion m a ha := by
    refine ⟨_, List.mem_cons_self, ?_⟩
    rcases Generator.mem_companions.1 ha with h | h | h | h <;> cases h
    all_goals exact prefix_append (prefix_append (prefix_append (prefix_folder m) _) _) _
  apart m m' _ _ a ha := by
    rcases Generator.mem_companions.1 ha with h | h | h | h <;> cases h
    all_goals exact append_ne_append (by decide) (by decide)
  shared ts := rfl
  stem m m' hm hm' _ h :=
    stem_eq_of_path_eq (hm.notMem_pascal rfl) (hm'.notMem_pascal rfl) (by decide) h

/-! ## Svelte -/

/-- The layout of Svelte sources. -/
def Svelte.fileLayout : FileLayout where
  roots := ["src/lib/components/", "src/components/"]
  shared := ["src/lib/styles/tokens.css", "src/lib/tokens.ts", "src/lib/theme.ts",
    "src/lib/utils/cx.ts"]
  stem := ComponentModel.pascalName

theorem Svelte.prefix_folder (m : ComponentModel) :
    ∃ root ∈ fileLayout.roots, root.toList <+: (folder m).toList := by
  unfold folder
  split
  · exact ⟨_, List.mem_cons_self, prefix_append List.prefix_rfl _⟩
  · exact ⟨_, .tail _ List.mem_cons_self, prefix_append List.prefix_rfl _⟩

theorem Svelte.follows : generator.Follows fileLayout where
  component m := by
    obtain ⟨root, hroot, hfolder⟩ := prefix_folder m
    exact ⟨root, hroot, prefix_append (prefix_append (prefix_append hfolder _) _) _⟩
  companion m a ha := by
    obtain ⟨root, hroot, hfolder⟩ := prefix_folder m
    refine ⟨root, hroot, ?_⟩
    rcases Generator.mem_companions.1 ha with h | h | h | h <;> cases h
    all_goals exact prefix_append (prefix_append (prefix_append hfolder _) _) _
  apart m m' _ _ a ha := by
    rcases Generator.mem_companions.1 ha with h | h | h | h <;> cases h
    all_goals exact append_ne_append (by decide) (by decide)
  shared ts := rfl
  stem m m' hm hm' _ h :=
    stem_eq_of_path_eq (hm.notMem_pascal rfl) (hm'.notMem_pascal rfl) (by decide) h

/-! ## Angular -/

/-- The layout of Angular sources. -/
def Angular.fileLayout : FileLayout where
  roots := ["src/app/components/"]
  shared := ["src/styles/_tokens.scss", "src/styles/tokens.css", "src/app/theme/theme.service.ts",
    "src/app/lib/class-names.ts"]
  stem := ComponentModel.kebabName

theorem Angular.prefix_folder (m : ComponentModel) :
    "src/app/components/".toList <+: (folder m).toList := prefix_append List.prefix_rfl _

theorem Angular.follows : generator.Follows fileLayout where
  component m := ⟨_, List.mem_cons_self,
    prefix_append (prefix_append (prefix_append (prefix_folder m) _) _) _⟩
  companion m a ha := by
    refine ⟨_, List.mem_cons_self, ?_⟩
    rcases Generator.mem_companions.1 ha with h | h | h | h <;> cases h
    all_goals exact prefix_append (prefix_append (prefix_append (prefix_folder m) _) _) _
  apart m m' _ _ a ha := by
    rcases Generator.mem_companions.1 ha with h | h | h | h <;> cases h
    all_goals exact append_ne_append (by decide) (by decide)
  shared ts := rfl
  stem m m' hm hm' _ h :=
    stem_eq_of_path_eq (hm.notMem_kebab rfl (by decide)) (hm'.notMem_kebab rfl (by decide))
      (by decide) h

/-! ## Flutter -/

/-- The layout of Flutter sources. -/
def Flutter.fileLayout : FileLayout where
  roots := ["lib/components/", "test/components/", "widgetbook/lib/"]
  shared := ["lib/theme/tokens.dart", "lib/theme/app_theme.dart", "lib/utils/responsive.dart"]
  stem := ComponentModel.snakeName

theorem Flutter.componentPath_eq (m : ComponentModel) : generator.componentPath m =
    "lib/components/" ++ Text.snake m.category.name ++ "/" ++ m.snakeName ++ ".dart" := by
  change "lib/" ++ ("components/" ++ Text.snake m.category.name ++ "/" ++ m.snakeName ++ ".dart") = _
  rw [← String.append_assoc, ← String.append_assoc, ← String.append_assoc, ← String.append_assoc]
  rfl

theorem Flutter.prefix_component (m : ComponentModel) :
    "lib/components/".toList <+: (generator.componentPath m).toList := by
  rw [componentPath_eq]
  exact prefix_append (prefix_append (prefix_append (prefix_append List.prefix_rfl _) _) _) _

theorem Flutter.prefix_companion {m : ComponentModel} {a : Artifact}
    (h : a ∈ generator.companions m) :
    "test/components/".toList <+: a.path.toList ∨ "widgetbook/lib/".toList <+: a.path.toList := by
  rcases Generator.mem_companions.1 h with h | h | h | h <;> cases h
  · exact .inl (prefix_append (prefix_append List.prefix_rfl _) _)
  · exact .inr (prefix_append (prefix_append List.prefix_rfl _) _)

theorem Flutter.follows : generator.Follows fileLayout where
  component m := ⟨_, List.mem_cons_self, prefix_component m⟩
  companion m a ha := by
    rcases prefix_companion ha with h | h
    · exact ⟨_, .tail _ (.head _), h⟩
    · exact ⟨_, .tail _ (.tail _ (.head _)), h⟩
  apart m m' _ _ a ha := by
    rcases prefix_companion ha with h | h
    all_goals exact ne_of_beginnings h (prefix_component m') (by decide) (by decide)
  shared ts := rfl
  stem m m' hm hm' _ h := by
    rw [componentPath_eq, componentPath_eq] at h
    exact stem_eq_of_path_eq (hm.notMem_snake rfl (by decide)) (hm'.notMem_snake rfl (by decide))
      (by decide) h

/-! ## SwiftUI -/

/-- The layout of SwiftUI sources. -/
def SwiftUI.fileLayout : FileLayout where
  roots := ["Sources/Components/", "Tests/ComponentsTests/"]
  shared := ["Sources/Theme/Tokens.swift", "Sources/Theme/Theme.swift",
    "Sources/Utilities/Color+Hex.swift"]
  stem := ComponentModel.pascalName

theorem SwiftUI.prefix_component (m : ComponentModel) :
    "Sources/Components/".toList <+: (generator.componentPath m).toList :=
  prefix_append (prefix_append (prefix_append (prefix_append List.prefix_rfl _) _) _) _

theorem SwiftUI.prefix_companion {m : ComponentModel} {a : Artifact}
    (h : a ∈ generator.companions m) : "Tests/ComponentsTests/".toList <+: a.path.toList := by
  rcases Generator.mem_companions.1 h with h | h | h | h <;> cases h
  exact prefix_append (prefix_append List.prefix_rfl _) _

theorem SwiftUI.follows : generator.Follows fileLayout where
  component m := ⟨_, List.mem_cons_self, prefix_component m⟩
  companion m a ha := ⟨_, .tail _ (.head _), prefix_companion ha⟩
  apart m m' _ _ a ha :=
    ne_of_beginnings (prefix_companion ha) (prefix_component m') (by decide) (by decide)
  shared ts := rfl
  stem m m' hm hm' _ h :=
    stem_eq_of_path_eq (hm.notMem_pascal rfl) (hm'.notMem_pascal rfl) (by decide) h

/-! ## Compose -/

/-- The layout of Compose sources. -/
def Compose.fileLayout : FileLayout where
  roots := ["src/main/java/com/example/designsystem/components/",
    "src/androidTest/java/com/example/designsystem/components/"]
  shared := ["src/main/java/com/example/designsystem/theme/AppTokens.kt",
    "src/main/java/com/example/designsystem/theme/AppTheme.kt",
    "src/main/java/com/example/designsystem/util/Modifiers.kt"]
  stem := ComponentModel.pascalName

theorem Compose.prefix_component (m : ComponentModel) :
    "src/main/java/com/example/designsystem/components/".toList <+:
      (generator.componentPath m).toList := by
  refine prefix_append (prefix_append (prefix_append ?_ _) _) _
  unfold package
  cases m.category <;> decide +kernel

theorem Compose.prefix_companion {m : ComponentModel} {a : Artifact}
    (h : a ∈ generator.companions m) :
    "src/androidTest/java/com/example/designsystem/components/".toList <+: a.path.toList := by
  rcases Generator.mem_companions.1 h with h | h | h | h <;> cases h
  refine prefix_append (prefix_append ?_ _) _
  decide +kernel

theorem Compose.follows : generator.Follows fileLayout where
  component m := ⟨_, List.mem_cons_self, prefix_component m⟩
  companion m a ha := ⟨_, .tail _ (.head _), prefix_companion ha⟩
  apart m m' _ _ a ha :=
    ne_of_beginnings (prefix_companion ha) (prefix_component m') (by decide) (by decide)
  shared ts := rfl
  stem m m' hm hm' _ h :=
    stem_eq_of_path_eq (hm.notMem_pascal rfl) (hm'.notMem_pascal rfl) (by decide) h

/-! ## Stylesheets -/

/-- The layout of plain stylesheets. -/
def Css.fileLayout : FileLayout where
  roots := ["components/"]
  shared := ["tokens.css", "theme.css", "utilities.css"]
  stem := ComponentModel.kebabName

theorem Css.follows : generator.Follows fileLayout where
  component _ := ⟨_, List.mem_cons_self, prefix_append (prefix_append List.prefix_rfl _) _⟩
  companion _ _ ha := nomatch ha
  apart _ _ _ _ _ ha := nomatch ha
  shared _ := rfl
  stem _ _ _ _ _ h := eq_of_append_eq h

/-- The layout of Tailwind sources. -/
def Tailwind.fileLayout : FileLayout where
  roots := ["src/components/"]
  shared := ["tailwind.config.ts", "src/styles/tokens.css", "src/styles/globals.css",
    "src/lib/cn.ts"]
  stem := ComponentModel.kebabName

theorem Tailwind.follows : generator.Follows fileLayout where
  component _ := ⟨_, List.mem_cons_self, prefix_append (prefix_append List.prefix_rfl _) _⟩
  companion _ _ ha := nomatch ha
  apart _ _ _ _ _ ha := nomatch ha
  shared _ := rfl
  stem _ _ _ _ _ h := eq_of_append_eq h

/-! ## All platforms -/

/-- The layout of a platform. -/
def Platform.fileLayout : Platform → FileLayout
  | react => React.fileLayout
  | vue => Vue.fileLayout
  | angular => Angular.fileLayout
  | svelte => Svelte.fileLayout
  | flutter => Flutter.fileLayout
  | swiftUI => SwiftUI.fileLayout
  | compose => Compose.fileLayout
  | css => Css.fileLayout
  | tailwind => Tailwind.fileLayout

theorem Platform.follows (p : Platform) : p.generator.Follows p.fileLayout := by
  cases p with
  | react => exact React.follows
  | vue => exact Vue.follows
  | angular => exact Angular.follows
  | svelte => exact Svelte.follows
  | flutter => exact Flutter.follows
  | swiftUI => exact SwiftUI.follows
  | compose => exact Compose.follows
  | css => exact Css.follows
  | tailwind => exact Tailwind.follows

theorem Platform.fileLayout_isApart (p : Platform) : p.fileLayout.IsApart where
  nodup := by cases p <;> decide
  shared := by cases p <;> decide
  locales := by cases p <;> decide

/-- Components that are called the same on a platform are called the same in PascalCase. -/
theorem Platform.pascal_eq_of_stem_eq (p : Platform) {m m' : ComponentModel} (hm : m.IsNamed)
    (hm' : m'.IsNamed) (h : p.fileLayout.stem m = p.fileLayout.stem m') :
    Text.pascal m.name = Text.pascal m'.name := by
  have hpascal : m.pascalName = m'.pascalName → Text.pascal m.name = Text.pascal m'.name :=
    fun h => by rw [← hm.pascal, h, hm'.pascal]
  have hkebab : m.kebabName = m'.kebabName → Text.pascal m.name = Text.pascal m'.name := by
    rw [hm.kebab, hm'.kebab]
    exact Text.pascal_eq_of_kebab_eq hm.plain hm'.plain hm.ne_empty hm'.ne_empty
  have hsnake : m.snakeName = m'.snakeName → Text.pascal m.name = Text.pascal m'.name := by
    rw [hm.snake, hm'.snake]
    exact Text.pascal_eq_of_snake_eq hm.plain hm'.plain hm.ne_empty hm'.ne_empty
  cases p with
  | react | vue | svelte | swiftUI | compose => exact hpascal h
  | angular | css | tailwind => exact hkebab h
  | flutter => exact hsnake h

end DesignSystem
