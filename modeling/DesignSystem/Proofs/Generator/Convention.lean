import DesignSystem.Generator.Platform
import DesignSystem.Proofs.Component.Declarations
import DesignSystem.Proofs.Text.Split

/-!
# Conventions

The convention by which templates are looked up is the requested one, or the platform's first if the
platform does not have that. The generators read the requested one.

* `Generator.settled`: a component as in the request that names the convention by which templates
  are looked up.
* `convention?_eq_first_iff`, `convention?_eq_second_iff`: which of two conventions this is.
* `Platform.settled_texts`: on every platform a component and the settled one have the same files
  and the same source, unless it is a component with callbacks for React and the request names none
  of React's conventions: then the mark for components that run on the client is missing.
  `Platform.settled_texts_pressButton` is such a component.
-/

set_option autoImplicit false

namespace DesignSystem

/-- A component as in a request for a convention. -/
def ComponentModel.withConvention (m : ComponentModel) (c : Option String) : ComponentModel :=
  { m with options := { m.options with convention := c } }

namespace Generator

/-- A component as in the request that names the convention by which templates are looked up. -/
def settled (g : Generator) (m : ComponentModel) : ComponentModel :=
  m.withConvention (g.convention? m.options)

/-- A request names a convention that the platform has. -/
def Names (g : Generator) (o : TransformOptions) : Prop :=
  ∃ c ∈ g.conventions, o.convention = some c

/-- Two models have the same files, apart from what the sources hold. -/
structure SameFiles (g : Generator) (m m' : ComponentModel) : Prop where
  componentPath : g.componentPath m = g.componentPath m'
  types : g.types m = g.types m'
  styles : g.styles m = g.styles m'
  test : g.test m = g.test m'
  story : g.story m = g.story m'
  usage : g.usage m = g.usage m'

section
variable {g : Generator} {o : TransformOptions}

theorem convention?_of_mem {c : String} (hc : c ∈ g.conventions) (ho : o.convention = some c) :
    g.convention? o = some c := by
  simp [convention?, ho, hc]

theorem convention?_of_not_names (h : ¬ g.Names o) : g.convention? o = g.conventions.head? := by
  unfold convention?
  cases ho : o.convention with
  | none => simp
  | some c =>
    have hc : c ∉ g.conventions := fun hc => h ⟨c, hc, ho⟩
    simp [Option.filter, hc]

/-- A request for the convention that is found finds it. -/
theorem convention?_settled (g : Generator) (m : ComponentModel) :
    g.convention? (g.settled m).options = g.convention? m.options := by
  by_cases h : g.Names (g.settled m).options
  · obtain ⟨c, hc, ho⟩ := h
    rw [convention?_of_mem hc ho]
    exact ho.symm
  · have hm : ¬ g.Names m.options := by
      rintro ⟨c, hc, ho⟩
      exact h ⟨c, hc, convention?_of_mem hc ho⟩
    rw [convention?_of_not_names h, convention?_of_not_names hm]

/-- So the same templates are looked up. -/
theorem candidates_settled (g : Generator) (m : ComponentModel) :
    g.candidates (g.settled m) = g.candidates m := by
  unfold candidates
  rw [convention?_settled]
  rfl

/-! ## Platforms with two conventions -/

variable {a b : String} (hg : g.conventions = [a, b]) (hab : a ≠ b)
include hg hab

theorem convention?_eq_second_iff : g.convention? o = some b ↔ o.convention = some b := by
  have hb : b ∈ g.conventions := by simp [hg]
  refine ⟨fun h => ?_, convention?_of_mem hb⟩
  by_cases hnames : g.Names o
  · obtain ⟨c, hc, ho⟩ := hnames
    rw [convention?_of_mem hc ho] at h
    rw [ho, h]
  · rw [convention?_of_not_names hnames, hg] at h
    exact absurd (Option.some.inj h) hab

theorem convention?_eq_first_iff : g.convention? o = some a ↔ o.convention ≠ some b := by
  refine ⟨fun h ho => ?_, fun h => ?_⟩
  · rw [(convention?_eq_second_iff hg hab).2 ho] at h
    exact hab (Option.some.inj h).symm
  · by_cases hnames : g.Names o
    · obtain ⟨c, hc, ho⟩ := hnames
      rw [hg] at hc
      rcases List.mem_cons.1 hc with rfl | hc
      · exact convention?_of_mem (by simp [hg]) ho
      · rw [List.mem_singleton.1 hc] at ho
        exact absurd ho h
    · rw [convention?_of_not_names hnames, hg]
      rfl

end

end Generator

/-! ## Angular -/

section
variable (m : ComponentModel)

theorem Angular.isStandalone_settled :
    isStandalone (generator.settled m) = isStandalone m := by
  have h : generator.convention? m.options = some "module" ↔ m.options.convention = some "module" :=
    Generator.convention?_eq_second_iff rfl (by decide)
  unfold isStandalone
  exact decide_eq_decide.2 (not_congr h)

theorem Angular.source_settled : source (generator.settled m) = source m := by
  unfold source imports decorator standaloneSettings
  rw [isStandalone_settled]
  rfl

theorem Angular.sameFiles_settled : generator.SameFiles (generator.settled m) m where
  componentPath := rfl
  types := rfl
  styles := rfl
  test := by
    show test (generator.settled m) = test m
    unfold test testImports
    rw [isStandalone_settled]
    rfl
  story := rfl
  usage := rfl

/-! ## Svelte -/

theorem Svelte.usesKit_settled : usesKit (generator.settled m) = usesKit m := by
  have h : generator.convention? m.options = some "vite" ↔ m.options.convention = some "vite" :=
    Generator.convention?_eq_second_iff rfl (by decide)
  unfold usesKit
  exact decide_eq_decide.2 (not_congr h)

theorem Svelte.folder_settled : folder (generator.settled m) = folder m := by
  unfold folder
  rw [usesKit_settled]
  rfl

theorem Svelte.source_settled : source (generator.settled m) = source m := by
  unfold source script imports
  rw [usesKit_settled]
  rfl

theorem Svelte.sameFiles_settled : generator.SameFiles (generator.settled m) m where
  componentPath := by
    show s!"{folder (generator.settled m)}/{m.pascalName}.svelte" = _
    rw [folder_settled]
    rfl
  types := rfl
  styles := rfl
  test := by
    show test (generator.settled m) = test m
    unfold test
    rw [folder_settled]
    rfl
  story := by
    show story (generator.settled m) = story m
    unfold story
    rw [folder_settled]
    rfl
  usage := rfl

/-! ## React -/

/-- The lines that say that a component runs on the client. -/
def React.clientMark : String := "'use client';\n\n"

theorem React.sameFiles_settled : generator.SameFiles (generator.settled m) m :=
  ⟨rfl, rfl, rfl, rfl, rfl, rfl⟩

variable {m : ComponentModel}

theorem React.needsClient_settled :
    needsClient (generator.settled m) = true ↔
      m.callbacks ≠ [] ∧ m.options.convention ≠ some "pages-router" := by
  have h : generator.convention? m.options = some "app-router" ↔
      m.options.convention ≠ some "pages-router" :=
    Generator.convention?_eq_first_iff rfl (by decide)
  show (!m.callbacks.isEmpty && decide (generator.convention? m.options = some "app-router")) = true
    ↔ _
  simp [h]

/-- A request that names a convention of React is for the convention that is found. -/
theorem React.source_settled (h : generator.Names m.options) :
    source (generator.settled m) = source m := by
  obtain ⟨c, hc, ho⟩ := h
  have hconvention : generator.convention? m.options = m.options.convention := by
    rw [ho]
    exact Generator.convention?_of_mem hc ho
  unfold Generator.settled
  rw [hconvention]
  rfl

theorem React.source_settled_of_callbacks (h : m.callbacks = []) :
    source (generator.settled m) = source m := by
  have hm : needsClient m = false := by simp [needsClient, h]
  have hsettled : needsClient (generator.settled m) = false :=
    Bool.eq_false_iff.2 fun hclient => (needsClient_settled.1 hclient).1 h
  unfold source
  rw [hm, hsettled]
  rfl

/-- A request that names none leaves the mark of a component with callbacks out. -/
theorem React.source_settled_unnamed (h : m.callbacks ≠ []) (hnames : ¬ generator.Names m.options) :
    source (generator.settled m) = clientMark ++ source m := by
  have hnot : ∀ c ∈ generator.conventions, m.options.convention ≠ some c :=
    fun c hc ho => hnames ⟨c, hc, ho⟩
  have hm : needsClient m = false := by
    have happ := hnot "app-router" (by decide)
    simp [needsClient, happ]
  have hsettled : needsClient (generator.settled m) = true :=
    needsClient_settled.2 ⟨h, hnot _ (by decide)⟩
  have hmark : clientMark = "'use client';" ++ "\n" ++ ("" ++ "\n") := by decide
  unfold source Text.file
  rw [hm, hsettled, hmark]
  simp only [if_true, Bool.false_eq_true, if_false, List.nil_append, List.append_assoc,
    List.cons_append]
  rw [Text.unlines_cons _ (by simp), Text.unlines_cons _ (by simp)]
  simp only [String.append_assoc]
  rfl

theorem React.source_settled_ne (h : m.callbacks ≠ []) (hnames : ¬ generator.Names m.options) :
    source (generator.settled m) ≠ source m := by
  intro hsame
  rw [source_settled_unnamed h hnames] at hsame
  have hlength := congrArg String.length hsame
  rw [String.length_append] at hlength
  have hmark : 0 < clientMark.length := by decide
  omega

end

/-! ## All platforms -/

/-- A component is generated for React without the mark that it has in a request for the convention
by which templates are looked up. -/
structure Platform.LacksMark (p : Platform) (m : ComponentModel) : Prop where
  react : p = .react
  callbacks : m.callbacks ≠ []
  unnamed : ¬ p.generator.Names m.options

section
variable (p : Platform) (m : ComponentModel)

theorem Platform.sameFiles_settled :
    p.generator.SameFiles (p.generator.settled m) m := by
  cases p with
  | angular => exact Angular.sameFiles_settled m
  | svelte => exact Svelte.sameFiles_settled m
  | react => exact React.sameFiles_settled m
  | _ => exact ⟨rfl, rfl, rfl, rfl, rfl, rfl⟩

theorem Platform.source_settled (h : ¬ p.LacksMark m) :
    p.generator.source (p.generator.settled m) = p.generator.source m := by
  cases p with
  | angular => exact Angular.source_settled m
  | svelte => exact Svelte.source_settled m
  | react =>
    by_cases hnames : React.generator.Names m.options
    · exact React.source_settled hnames
    · by_cases hcallbacks : m.callbacks = []
      · exact React.source_settled_of_callbacks hcallbacks
      · exact absurd ⟨rfl, hcallbacks, hnames⟩ h
  | _ => rfl

/-- **A component is generated as in the request that names the convention by which templates are
looked up**, except for the mark of components with callbacks for React. -/
theorem Platform.settled_texts :
    p.generator.candidates (p.generator.settled m) = p.generator.candidates m ∧
    p.generator.SameFiles (p.generator.settled m) m ∧
    (p.generator.source (p.generator.settled m) = p.generator.source m ↔ ¬ p.LacksMark m) ∧
    (p.LacksMark m → p.generator.source (p.generator.settled m) =
      React.clientMark ++ p.generator.source m) := by
  refine ⟨p.generator.candidates_settled m, p.sameFiles_settled m,
    ⟨fun hsame hlacks => ?_, p.source_settled m⟩, fun hlacks => ?_⟩
  all_goals
    obtain ⟨rfl, hcallbacks, hnames⟩ := hlacks
  · exact React.source_settled_ne hcallbacks hnames hsame
  · exact React.source_settled_unnamed hcallbacks hnames

end

/-! ## Requests -/

/-- A component is modelled in the same way for all conventions. -/
theorem ComponentSpec.model_withConvention {c : ComponentSpec} {p : Platform}
    {o : TransformOptions} {m : ComponentModel} (h : c.model p o = .ok m)
    (convention : Option String) :
    c.model p { o with convention := convention } = .ok (m.withConvention convention) := by
  unfold ComponentSpec.model at h ⊢
  dsimp only at h ⊢
  cases hprops : (c.props.mapM fun (x : String × PropSpec) =>
      x.2.model p.types c.name x.1).result with
  | error e =>
    rw [hprops] at h
    cases h
  | ok props =>
    rw [hprops] at h
    cases h
    rfl

/-- A button that tells when it is pressed. -/
def pressButton : ComponentSpec where
  name := "Button"
  category := .interactive
  accessibility := { role := "button" }
  props := [("onPress", { descriptor := .complex .function })]

/-- In a request that names no convention the button lacks the mark that it has in a request for the
first one, by which its templates are looked up in both. -/
theorem Platform.settled_texts_pressButton : ∃ m, pressButton.model .react {} = .ok m ∧
    React.generator.convention? m.options = some "app-router" ∧
    pressButton.model .react { convention := some "app-router" } =
      .ok (React.generator.settled m) ∧
    React.generator.source (React.generator.settled m) ≠ React.generator.source m := by
  have hmodel : ((pressButton.model .react {}).map fun m =>
      (m.callbacks.isEmpty, m.options.convention)).toOption = some (false, none) := by
    decide +kernel
  obtain ⟨m, hm, hdata⟩ := exists_of_map_eq hmodel
  obtain ⟨hcallbacks, hconvention⟩ := Prod.mk.inj hdata
  have hnames : ¬ React.generator.Names m.options := by
    rintro ⟨c, -, hc⟩
    exact nomatch hconvention.symm.trans hc
  have hfirst : React.generator.convention? m.options = some "app-router" :=
    Generator.convention?_of_not_names hnames
  have hsettled : React.generator.settled m = m.withConvention (some "app-router") := by
    unfold Generator.settled
    rw [hfirst]
  refine ⟨m, hm, hfirst, ?_, React.source_settled_ne ?_ hnames⟩
  · rw [hsettled]
    exact ComponentSpec.model_withConvention hm _
  · exact List.isEmpty_eq_false_iff.1 hcallbacks

end DesignSystem
