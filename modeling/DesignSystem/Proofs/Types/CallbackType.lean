import DesignSystem.Proofs.Component.Identifiers
import DesignSystem.Proofs.Types.Scope
import DesignSystem.Proofs.Types.TypeMarks

/-!
# Types of callbacks without parameters

In languages with named types, the type of a callback shows whether it takes parameters: what stands
between its parentheses is empty, or is the types of the parameters.

* `NominalLanguage.Bounds`: what holds of all that a language writes, whatever its parts are, and of
  names. `NominalLanguage.Assigns.bounded` concludes that it holds of all types.
* `Leads`, `Trails`: a type does not start with a closing parenthesis, or does not end with an
  opening one.
* `Platform.takesNothing_iff`: the types that take no parameters are those of callbacks without any.
-/

set_option autoImplicit false

namespace DesignSystem

/-! ## The ends of types -/

/-- A text starts, and with another character than `c`. -/
def Leads (c : Char) (text : String) : Prop := ∃ d ∈ text.toList.head?, d ≠ c

/-- A text ends, and with another character than `c`. -/
def Trails (c : Char) (text : String) : Prop := ∃ d ∈ text.toList.getLast?, d ≠ c

instance (c : Char) (text : String) : Decidable (Leads c text) :=
  decidable_of_iff (text.toList.head?.any (· ≠ c)) (by simp [Leads, Option.any_eq_true])

instance (c : Char) (text : String) : Decidable (Trails c text) :=
  decidable_of_iff (text.toList.getLast?.any (· ≠ c)) (by simp [Trails, Option.any_eq_true])

section
variable {c : Char} {text : String}

theorem Leads.append (h : Leads c text) (rest : String) : Leads c (text ++ rest) := by
  obtain ⟨d, hd, hne⟩ := h
  exact ⟨d, by rw [String.toList_append]; exact List.mem_head?_append_of_mem_head? hd, hne⟩

theorem Trails.append (h : Trails c text) (front : String) : Trails c (front ++ text) := by
  obtain ⟨d, hd, hne⟩ := h
  exact ⟨d, by rw [String.toList_append]; exact List.mem_getLast?_append_of_mem_getLast? hd, hne⟩

theorem Trails.join {items : List String} (sep : String) (hne : items ≠ [])
    (h : ∀ item ∈ items, Trails c item) : Trails c (Text.join sep items) := by
  induction items with
  | nil => exact absurd rfl hne
  | cons item items ih =>
    cases items with
    | nil => simpa [Text.join] using h item (.head _)
    | cons next items =>
      rw [Text.join_cons_cons]
      exact (ih (List.cons_ne_nil _ _) fun item hitem => h item (.tail _ hitem)).append _

theorem Leads.join {items : List String} (sep : String) (hne : items ≠ [])
    (h : ∀ item ∈ items, Leads c item) : Leads c (Text.join sep items) := by
  obtain ⟨item, items, rfl⟩ := List.exists_cons_of_ne_nil hne
  obtain ⟨rest, hrest⟩ := Text.exists_join_cons sep item items
  rw [hrest]
  exact (h item (.head _)).append rest

/-- An identifier has no parentheses at its ends. -/
theorem isIdentifier_ends (h : isIdentifier text) (hc : Text.isPlainAlphanumeric c = false)
    (hne : c ≠ '_') : Leads c text ∧ Trails c text := by
  obtain ⟨first, rest, htext, -⟩ := isIdentifier_iff.1 h
  have hother : ∀ d ∈ text.toList, d ≠ c := by
    rintro d hd rfl
    rcases isIdentifier_chars h d hd with hplain | heq
    · exact Bool.false_ne_true (hc.symm.trans hplain)
    · exact hne heq
  have hnil : text.toList ≠ [] := by simp [htext]
  exact ⟨⟨_, List.head?_eq_some_head hnil, hother _ (List.head_mem hnil)⟩,
    ⟨_, List.getLast?_eq_some_getLast hnil, hother _ (List.getLast_mem hnil)⟩⟩

end

/-! ## All types of a language -/

namespace NominalLanguage

/-- What holds of all that a language writes, whatever its parts are, and of the names for
alternatives if it holds of the name that they extend. -/
structure Bounds (l : NominalLanguage) (Good : String → Prop) : Prop where
  primitive : ∀ kind, Good (l.primitive kind)
  complex : ∀ kind, Good (l.complex kind)
  custom : ∀ kind, Good (l.custom kind)
  callback : ∀ params returns, Good (l.callback params returns)
  list : ∀ item, Good (l.list item)
  openObject : Good l.openObject
  /-- An object that needs no declaration. -/
  object : ∀ hint fields, (l.object hint fields).source = none → Good (l.object hint fields).text
  option : ∀ {hint} index, Good hint → Good (optionHint hint index)

variable {l : NominalLanguage} {Good : String → Prop} (hl : l.Bounds Good)
include hl

/-- Under a name of which it holds, it holds of all types. Only alternatives of one type have the
type of another descriptor. -/
theorem Assigns.bounded {ds : List Declaration} {d : TypeDescriptor} {hint type : String}
    (h : l.Assigns ds d hint type) (hhint : Good hint) : Good type := by
  induction h with
  | @primitive kind => exact hl.primitive kind
  | @custom kind => exact hl.custom kind
  | truth => exact hl.primitive .boolean
  | complex kind | @signed kind => exact hl.complex kind
  | enumeration | alternatives | object => exact hhint
  | action | callback => exact hl.callback _ _
  | common _ hcommon ih =>
    obtain ⟨⟨d, index⟩, hmem, rfl⟩ := List.mem_map.1 (mem_of_commonMember? hcommon)
    exact ih _ hmem (hl.option index hhint)
  | list => exact hl.list _
  | openObject => exact hl.openObject
  | record _ hsource => exact hl.object _ _ hsource

end NominalLanguage

theorem bounds_swift : Swift.language.Bounds (Leads ')') where
  primitive kind := by cases kind <;> decide
  complex kind := by cases kind <;> decide
  custom kind := by
    cases kind with
    | other name =>
      change Leads ')' "String"
      decide
    | _ => decide
  callback params returns := by
    have hopen : Leads ')' "(" := by decide
    exact ((hopen.append _).append _).append _
  list item := by
    have hopen : Leads ')' "[" := by decide
    exact (hopen.append _).append _
  openObject := by decide
  object hint fields h := nomatch h
  option index h := (h.append _).append _

theorem bounds_kotlin : Kotlin.language.Bounds (Leads ')') where
  primitive kind := by cases kind <;> decide
  complex kind := by cases kind <;> decide
  custom kind := by
    cases kind with
    | color => decide
    | _ =>
      change Leads ')' "String"
      decide
  callback params returns := by
    have hopen : Leads ')' "(" := by decide
    exact ((hopen.append _).append _).append _
  list item := by
    have hopen : Leads ')' "List<" := by decide
    exact (hopen.append _).append _
  openObject := by decide
  object hint fields h := nomatch h
  option index h := (h.append _).append _

theorem bounds_dart : Dart.language.Bounds (Trails '(') where
  primitive kind := by cases kind <;> decide
  complex kind := by cases kind <;> decide
  custom kind := by
    cases kind with
    | color | url => decide
    | _ =>
      change Trails '(' "String"
      decide
  callback params returns := by
    have hclose : Trails '(' ")" := by decide
    exact hclose.append _
  list item := by
    have hclose : Trails '(' ">" := by decide
    exact hclose.append _
  openObject := by decide
  object hint fields _ := by
    simp only [Dart.language, Dart.object]
    split
    · decide
    · have hclose : Trails '(' "\x7d)" := by decide
      exact hclose.append _
  option {hint} index _ := by
    -- the name ends with the number of the alternative
    have hnumber : Trails '(' (toString (index + 1)) := by
      have hne : (toString (index + 1)).toList ≠ [] := by
        rw [Json.toList_toString]
        exact Json.digitsOf_ne_nil _
      refine ⟨_, List.getLast?_eq_some_getLast hne, ?_⟩
      have hdigit := Json.allDigits_toString (index + 1) _ (List.getLast_mem hne)
      rintro hparen
      exact absurd (hparen ▸ hdigit) (by decide)
    exact hnumber.append _

/-! ## Callbacks -/

namespace Platform

/-- A type is that of a callback that takes no parameters. -/
def takesNothing : Platform → String → Bool
  | swiftUI | compose => fun type => Text.startsWith "() -> " type
  | flutter => fun type => type = "VoidCallback" || Text.endsWith " Function()" type
  | _ => fun _ => false

end Platform

/-- In Swift and Kotlin the types of parameters stand in front. -/
theorem startsWith_arrow_iff {params : List String} (returns : String)
    (h : ∀ param ∈ params, Leads ')' param) :
    Text.startsWith "() -> " ("(" ++ Text.join ", " params ++ ") -> " ++ returns) = true ↔
      params = [] := by
  constructor
  · intro hstarts
    by_contra hne
    obtain ⟨d, hd, hdne⟩ := ((Leads.join ", " hne h).append ") -> ").append returns
    have htext : "(" ++ Text.join ", " params ++ ") -> " ++ returns =
        "(" ++ (Text.join ", " params ++ ") -> " ++ returns) := by simp only [String.append_assoc]
    have hfront : "() -> " = "(" ++ ") -> " := rfl
    rw [htext, hfront, Text.startsWith_append_of_ne "(" (c := ')') rfl hd hdne.symm] at hstarts
    cases hstarts
  · rintro rfl
    have htext : "(" ++ Text.join ", " [] ++ ") -> " ++ returns = "() -> " ++ returns := rfl
    rw [htext]
    exact Text.startsWith_append _ _

/-- In Dart they stand at the end. -/
theorem endsWith_function_iff {params : List String} (returns : String)
    (h : ∀ param ∈ params, Trails '(' param) :
    Text.endsWith " Function()" (returns ++ " Function(" ++ Text.join ", " params ++ ")") = true ↔
      params = [] := by
  constructor
  · intro hends
    by_contra hne
    obtain ⟨d, hd, hdne⟩ := (Trails.join ", " hne h).append (returns ++ " Function(")
    have hback : " Function()" = " Function(" ++ ")" := rfl
    rw [hback, Text.endsWith_append_of_ne ")" (c := '(') rfl hd hdne.symm] at hends
    cases hends
  · rintro rfl
    have htext : returns ++ " Function(" ++ Text.join ", " [] ++ ")" =
        returns ++ " Function()" := by
      simp only [String.append_assoc]
      rfl
    rw [htext]
    exact Text.endsWith_append _ _

section
variable {l : NominalLanguage} {hint type : String}

/-- A callback has the type of callbacks as such, and then no parameters, or one that is written
with the types of its parameters. -/
theorem NominalLanguage.Assigns.callback_cases {ds : List Declaration} {d : TypeDescriptor}
    (hd : d.isCallback = true) (h : l.Assigns ds d hint type) :
    (d.params = [] ∧ type = l.complex .function) ∨
      ∃ params returns, type = l.callback params returns ∧ params.length = d.params.length ∧
        ∀ param ∈ params, ∃ p ∈ d.params,
          l.Assigns ds p.2 (NominalLanguage.memberHint hint p.1) param := by
  cases h with
  | complex kind =>
    cases kind with
    | function => exact .inl ⟨rfl, rfl⟩
    | node | element | ref | date | file => cases hd
  | action hparams | callback hparams =>
    exact .inr ⟨_, _, rfl, List.length_map .., List.forall_mem_map.2 fun p hp => ⟨p, hp, hparams p hp⟩⟩
  | @signed kind _ _ _ hkind =>
    cases kind with
    | function => exact absurd rfl hkind
    | node | element | ref | date | file => cases hd
  | truth _ hvalues | enumeration hvalues =>
    cases d with
    | complex | signed => cases hvalues
    | primitive | custom | union | array | object => cases hd
  | primitive | custom | common | alternatives | list | openObject | record | object => cases hd

end

/-- The names of a callback's parameters are identifiers. Swift and Kotlin do without, since what is
declared for a parameter starts with the name for the callback. -/
def Platform.NamesParams (p : Platform) (d : TypeDescriptor) : Prop :=
  p = .flutter → ∀ param ∈ d.params, isIdentifier param.1

theorem arrow_takesNothing_iff {l : NominalLanguage} {d : TypeDescriptor} {hint type : String}
    (hl : l.Bounds (Leads ')')) (hfunction : Text.startsWith "() -> " (l.complex .function) = true)
    (hcallback : ∀ params returns,
      l.callback params returns = "(" ++ Text.join ", " params ++ ") -> " ++ returns)
    (hhint : isIdentifier hint) (hd : d.isCallback = true) (h : (l.map d hint).result = .ok type) :
    Text.startsWith "() -> " type = true ↔ d.params = [] := by
  rcases (NominalLanguage.assigns_iff.2 h).callback_cases hd with ⟨hnil, rfl⟩ | ⟨params, returns, rfl, hlength, hall⟩
  · exact iff_of_true hfunction hnil
  · have hleads : ∀ param ∈ params, Leads ')' param := by
      intro param hmem
      obtain ⟨p, -, hmapped⟩ := hall param hmem
      have hname := (isIdentifier_ends (c := ')') hhint (by decide) (by decide)).1
      exact hmapped.bounded hl (hname.append _)
    rw [hcallback, startsWith_arrow_iff returns hleads, ← List.length_eq_zero_iff, hlength,
      List.length_eq_zero_iff]

theorem dart_takesNothing_of_nil {d : TypeDescriptor} {hint type : String}
    (hd : d.isCallback = true) (h : (Dart.language.map d hint).result = .ok type)
    (hnil : d.params = []) : Platform.flutter.takesNothing type = true := by
  rcases (NominalLanguage.assigns_iff.2 h).callback_cases hd with ⟨-, rfl⟩ | ⟨params, returns, rfl, hlength, -⟩
  · rfl
  · rw [hnil, List.length_nil, List.length_eq_zero_iff] at hlength
    subst hlength
    have hends := (endsWith_function_iff returns (List.forall_mem_nil _)).2 rfl
    exact Bool.or_eq_true_iff.2 (.inr hends)

theorem dart_nil_of_takesNothing {d : TypeDescriptor} {hint type : String}
    (hhint : isIdentifier hint) (hd : d.isCallback = true)
    (h : (Dart.language.map d hint).result = .ok type)
    (hnames : ∀ param ∈ d.params, isIdentifier param.1)
    (htype : Platform.flutter.takesNothing type = true) : d.params = [] := by
  rcases (NominalLanguage.assigns_iff.2 h).callback_cases hd with ⟨hnil, -⟩ | ⟨params, returns, rfl, hlength, hall⟩
  · exact hnil
  · have htrails : ∀ param ∈ params, Trails '(' param := by
      intro param hmem
      obtain ⟨p, hp, hmapped⟩ := hall param hmem
      have hname : isIdentifier (NominalLanguage.memberHint hint p.1) :=
        isIdentifier_append hhint ((isIdentifier_chars (hnames p hp)).isPlain_apply rfl)
      exact hmapped.bounded bounds_dart (isIdentifier_ends hname (by decide) (by decide)).2
    rw [← List.length_eq_zero_iff, ← hlength, List.length_eq_zero_iff]
    rcases Bool.or_eq_true_iff.1 htype with hname | hends
    · -- the name for callbacks has no parentheses
      have hmem : ')' ∈ (Dart.language.callback params returns).toList := by
        simp [Dart.language]
      rw [of_decide_eq_true hname] at hmem
      exact absurd hmem (by decide)
    · exact (endsWith_function_iff returns htrails).1 hends

/-- **A callback has a type that takes no parameters just if it has none itself.** -/
theorem Platform.takesNothing_iff {platform : Platform} {d : TypeDescriptor} {hint type : String}
    (hplatform : platform.nominal?.isSome) (hhint : isIdentifier hint) (hd : d.isCallback = true)
    (h : (platform.types.map d hint).result = .ok type) :
    (d.params = [] → platform.takesNothing type = true) ∧
      (platform.NamesParams d → platform.takesNothing type = true → d.params = []) := by
  cases platform with
  | swiftUI =>
    have hiff := arrow_takesNothing_iff bounds_swift rfl (fun _ _ => rfl) hhint hd h
    exact ⟨hiff.2, fun _ => hiff.1⟩
  | compose =>
    have hiff := arrow_takesNothing_iff bounds_kotlin rfl (fun _ _ => rfl) hhint hd h
    exact ⟨hiff.2, fun _ => hiff.1⟩
  | flutter =>
    exact ⟨dart_takesNothing_of_nil hd h,
      fun hnames => dart_nil_of_takesNothing hhint hd h (hnames rfl)⟩
  | react | vue | angular | svelte | css | tailwind => cases hplatform

end DesignSystem
