import DesignSystem.Proofs.Reading.Enumeration
import DesignSystem.Proofs.Text.Recutting
import Mathlib.Data.List.Induction
import Mathlib.Data.List.Infix
import Mathlib.Data.List.Nodup

/-!
# Declared alternatives as they are read

Each language declares alternatives with a variant for each member. The name of a variant comes from
the letters of the member's type, and what holds the value has this type. A variant whose name is
taken, or that has none, gets a name with its number instead, whether or not that name is free.

* `nextVariantName`: the name of one variant, from the names before it.
* `nodup_variantNames_iff`: when the names are different.
* `Dialect.variantWords`: the words that tell the variants apart; in Dart the name of the
  alternatives stands in front of each.
* `Dialect.readAlternatives`: the names of the variants, if there is one for each of given types, in
  their order, and nothing else.
* `readAlternatives_alternatives`: what is declared for members is read as one variant for each of
  them.
-/

set_option autoImplicit false

namespace DesignSystem

/-! ## Names that give way -/

/-- The name of the variant behind those of the names `used`. -/
def nextVariantName (numbered : Nat → String) (used : List String) : Option String → String
  | some name => if name ∈ used then numbered (used.length + 1) else name
  | none => numbered (used.length + 1)

/-- A variant cannot have the name that is derived for it: there is none, or it is taken. -/
def GivesWay (used : List String) (derived : Option String) : Prop :=
  ∀ name, derived = some name → name ∈ used

section
variable {numbered : Nat → String} {used : List String} {name : String} {d : Option String}
  {ds : List (Option String)}

theorem nextVariantName_of_givesWay (h : GivesWay used d) :
    nextVariantName numbered used d = numbered (used.length + 1) := by
  cases d with
  | none => rfl
  | some name => exact if_pos (h name rfl)

theorem exists_of_not_givesWay (numbered : Nat → String) (h : ¬ GivesWay used d) :
    ∃ name, d = some name ∧ name ∉ used ∧ nextVariantName numbered used d = name := by
  simp only [GivesWay, not_forall] at h
  obtain ⟨name, rfl, hfree⟩ := h
  exact ⟨name, rfl, hfree, if_neg hfree⟩

theorem variantNames_cons : variantNames numbered used (d :: ds) =
    nextVariantName numbered used d ::
      variantNames numbered (used ++ [nextVariantName numbered used d]) ds := by
  cases d <;> rfl

theorem length_variantNames (numbered : Nat → String) (used : List String)
    (derived : List (Option String)) :
    (variantNames numbered used derived).length = derived.length := by
  induction derived generalizing used with
  | nil => rfl
  | cons first rest ih => exact congrArg (· + 1) (ih _)

theorem variantNames_append (more : List (Option String)) :
    variantNames numbered used (ds ++ more) = variantNames numbered used ds ++
      variantNames numbered (used ++ variantNames numbered used ds) more := by
  induction ds generalizing used with
  | nil => simp [variantNames]
  | cons d ds ih => simp [variantNames_cons, ih]

/-- A further variant leaves the names before it as they are. -/
theorem variantNames_concat : variantNames numbered [] (ds ++ [d]) =
    variantNames numbered [] ds ++ [nextVariantName numbered (variantNames numbered [] ds) d] := by
  rw [variantNames_append, List.nil_append, variantNames_cons, variantNames]

/-- Other names that are as different as these are given in the same way. -/
theorem variantNames_map {f : String → String} (hf : Function.Injective f) (used : List String) :
    variantNames (fun n => f (numbered n)) (used.map f) (ds.map (Option.map f)) =
      (variantNames numbered used ds).map f := by
  induction ds generalizing used with
  | nil => rfl
  | cons d ds ih =>
    have hnext : nextVariantName (fun n => f (numbered n)) (used.map f) (d.map f) =
        f (nextVariantName numbered used d) := by
      cases d with
      | none => simp [nextVariantName]
      | some name =>
        simp only [nextVariantName, Option.map_some, List.length_map,
          List.mem_map_of_injective hf, apply_ite f]
    rw [List.map_cons, variantNames_cons, variantNames_cons, List.map_cons, hnext, ← ih,
      List.map_append, List.map_singleton]

/-- Each name that is derived is given, if not to the variant that it is derived for, then to one
before. -/
theorem mem_variantNames_of_mem (h : some name ∈ ds) : name ∈ variantNames numbered [] ds := by
  induction ds using List.reverseRecOn with
  | nil => cases h
  | append_singleton ds d ih =>
    rw [variantNames_concat, List.mem_append]
    rcases List.mem_append.1 h with h | h
    · exact .inl (ih h)
    · obtain rfl := List.mem_singleton.1 h
      by_cases hway : GivesWay (variantNames numbered [] ds) (some name)
      · exact .inl (hway name rfl)
      · obtain ⟨_, hname, -, hnext⟩ := exists_of_not_givesWay numbered hway
        cases hname
        exact .inr (List.mem_singleton.2 hnext.symm)

/-- A name is one that is derived, or has the number of a variant. -/
theorem of_mem_variantNames (h : name ∈ variantNames numbered [] ds) :
    some name ∈ ds ∨ ∃ n ≤ ds.length, name = numbered n := by
  induction ds using List.reverseRecOn with
  | nil => cases h
  | append_singleton ds d ih =>
    rw [variantNames_concat, List.mem_append, List.mem_singleton] at h
    rw [List.mem_append, List.mem_singleton, List.length_append, List.length_singleton]
    rcases h with h | rfl
    · exact (ih h).imp .inl fun ⟨n, hn, hname⟩ => ⟨n, hn.trans (Nat.le_add_right _ 1), hname⟩
    · by_cases hway : GivesWay (variantNames numbered [] ds) d
      · refine .inr ⟨ds.length + 1, le_rfl, ?_⟩
        rw [nextVariantName_of_givesWay hway, length_variantNames]
      · obtain ⟨found, hd, -, hnext⟩ := exists_of_not_givesWay numbered hway
        exact .inl (.inr (hnext ▸ hd.symm))

/-- The name of a further variant is taken just if it is one with a number that is derived for a
variant before. -/
theorem nextVariantName_mem_iff (hnumbered : Function.Injective numbered) :
    nextVariantName numbered (variantNames numbered [] ds) d ∈ variantNames numbered [] ds ↔
      GivesWay (variantNames numbered [] ds) d ∧ some (numbered (ds.length + 1)) ∈ ds := by
  by_cases hway : GivesWay (variantNames numbered [] ds) d
  · rw [nextVariantName_of_givesWay hway, length_variantNames, and_iff_right hway]
    refine ⟨fun h => ?_, mem_variantNames_of_mem⟩
    refine (of_mem_variantNames h).resolve_right ?_
    rintro ⟨n, hn, heq⟩
    have := hnumbered heq
    omega
  · obtain ⟨name, -, hfree, hnext⟩ := exists_of_not_givesWay numbered hway
    rw [hnext]
    exact iff_of_false hfree fun h => hway h.1

/-- The names are different just if no variant gets a number instead of its name while the name with
this number is derived for a variant before. -/
theorem nodup_variantNames_iff (hnumbered : Function.Injective numbered) :
    (variantNames numbered [] ds).Nodup ↔ ∀ before d, before ++ [d] <+: ds →
      GivesWay (variantNames numbered [] before) d →
        some (numbered (before.length + 1)) ∉ before := by
  induction ds using List.reverseRecOn with
  | nil => simp [variantNames]
  | append_singleton ds e ih =>
    have hnodup : (variantNames numbered [] (ds ++ [e])).Nodup ↔
        (variantNames numbered [] ds).Nodup ∧
          nextVariantName numbered (variantNames numbered [] ds) e ∉ variantNames numbered [] ds := by
      rw [variantNames_concat, ← List.concat_eq_append, List.nodup_concat, and_comm]
    simp only [hnodup, ih, nextVariantName_mem_iff hnumbered, not_and, List.prefix_concat_iff]
    constructor
    · rintro ⟨hbefore, hlast⟩ before d (heq | hprefix)
      · obtain ⟨rfl, hd⟩ := List.append_inj' heq rfl
        obtain rfl := List.singleton_inj.1 hd
        exact hlast
      · exact hbefore before d hprefix
    · exact fun h => ⟨fun before d hprefix => h before d (.inr hprefix), h ds e (.inl rfl)⟩

end

namespace Text

theorem join_nothing_concat (items : List String) (last : String) :
    join "" (items ++ [last]) = join "" items ++ last := by
  apply String.toList_injective
  simp [toList_join_nothing]

theorem letters_join {sep : String} (hsep : letters sep = []) : ∀ items : List String,
    letters (join sep items) = items.flatMap letters
  | [] => rfl
  | [item] => by simp [join]
  | item :: next :: items => by
    rw [join_cons_cons, letters_append, letters_append, hsep, letters_join hsep (next :: items),
      List.append_nil]
    exact List.flatMap_cons.symm

end Text

namespace Reading.Dialect

variable {y : Dialect} {hint type word : String} {c : Char}

/-! ## Words for variants -/

/-- The word that a type gives for its variant, if it gives one. -/
def derivedWord : Dialect → String → Option String
  | swift, type =>
    let word := Swift.ident (Text.camel (Swift.typeWords type))
    if word.isEmpty then none else some word
  | kotlin, type =>
    let letters := typeLetters type
    if letters.isEmpty then none else some (Text.pascal letters ++ "Value")
  | dart, type =>
    let letters := typeLetters type
    if letters.isEmpty then none else some (Text.pascal letters)

/-- The word for a variant with its number. -/
def numberedWord : Dialect → Nat → String
  | swift, n => "option" ++ toString n
  | kotlin, n | dart, n => "Option" ++ toString n

/-- The words for the variants of members. -/
def variantWords (y : Dialect) (members : List String) : List String :=
  variantNames y.numberedWord [] (members.map y.derivedWord)

/-- What the names of all variants start with. -/
def variantPrefix : Dialect → (hint : String) → String
  | dart, hint => hint
  | _, _ => ""

theorem length_variantWords (y : Dialect) (members : List String) :
    (y.variantWords members).length = members.length := by
  rw [variantWords, length_variantNames, List.length_map]

theorem numberedWord_injective (y : Dialect) : Function.Injective y.numberedWord := by
  intro m n h
  have hdigits : toString m = toString n := by
    cases y <;> exact (String.append_right_inj _).1 h
  rw [← String.toList_inj, Json.toList_toString, Json.toList_toString] at hdigits
  exact Json.digitsOf_injective hdigits

/-! ## Their letters -/

theorem isPlain_typeLetters (type : String) : Text.IsPlain (typeLetters type) := by
  intro c hc
  rw [typeLetters, String.toList_ofList] at hc
  exact (List.mem_filter.1 hc).2

theorem letters_typeLetters (type : String) :
    Text.letters (typeLetters type) = Text.letters type := by
  rw [Text.letters, typeLetters, String.toList_ofList, List.filter_filter]
  simp only [Bool.and_self]
  rfl

/-- The words of a type have only spaces between them. -/
theorem of_mem_typeWords (h : c ∈ (Swift.typeWords type).toList) :
    Text.isPlainAlphanumeric c ∨ Text.isSeparatorChar c := by
  rcases Text.mem_join h with hspace | ⟨piece, hpiece, hc⟩
  · obtain rfl := List.mem_singleton.1 hspace
    exact .inr rfl
  · obtain ⟨chars, hchars, rfl⟩ := List.mem_map.1 (List.mem_filter.1 hpiece).1
    rw [String.toList_ofList] at hc
    exact .inl (by simpa using Text.of_mem_splitList hchars c hc)

theorem letters_typeWords (type : String) :
    Text.letters (Swift.typeWords type) = Text.letters type := by
  have hempty : ∀ pieces : List String,
      (pieces.filter (!·.isEmpty)).flatMap Text.letters = pieces.flatMap Text.letters := by
    intro pieces
    induction pieces with
    | nil => rfl
    | cons piece pieces ih =>
      rw [List.flatMap_cons, List.filter_cons, ← ih]
      split
      · exact List.flatMap_cons
      · next hpiece =>
        obtain rfl : piece = "" := by simpa using hpiece
        rfl
  have hchars : ∀ pieces : List (List Char), (pieces.map String.ofList).flatMap Text.letters =
      (pieces.flatten.filter Text.isPlainAlphanumeric).map Char.toLower := by
    intro pieces
    rw [List.flatMap_map, List.filter_flatten, List.map_flatten, List.map_map, List.flatMap_def]
    simp only [Text.letters, String.toList_ofList]
    rfl
  unfold Swift.typeWords
  rw [Text.letters_join rfl, hempty, Text.splitWhere, hchars, Text.flatten_splitList]
  simp only [Bool.not_not, List.filter_filter, Bool.and_self]
  rfl

/-- A word for a variant has letters and digits, and perhaps the backticks of a reserved word. -/
theorem of_mem_derivedWord (h : y.derivedWord type = some word) (hc : c ∈ word.toList) :
    Text.isPlainAlphanumeric c ∨ c = '`' := by
  have hpascal : Text.IsPlain (Text.pascal (typeLetters type)) :=
    Text.isPlain_pascal (isPlain_typeLetters type)
  cases y with
  | swift =>
    simp only [derivedWord, Option.ite_none_left_eq_some, Option.some.injEq] at h
    obtain ⟨-, rfl⟩ := h
    have hplain : Text.IsPlain (Text.camel (Swift.typeWords type)) :=
      Text.isPlain_apply rfl fun _ => of_mem_typeWords
    unfold Swift.ident at hc
    split at hc
    · simp only [Swift.escapeReserved, String.toList_append, List.mem_append] at hc
      rcases hc with (hc | hc) | hc
      · exact .inr (List.mem_singleton.1 hc)
      · exact .inl (hplain c hc)
      · exact .inr (List.mem_singleton.1 hc)
    · exact .inl (hplain c hc)
  | kotlin =>
    simp only [derivedWord, Option.ite_none_left_eq_some, Option.some.injEq] at h
    obtain ⟨-, rfl⟩ := h
    have hvalue : "Value".toList.all Text.isPlainAlphanumeric := rfl
    rw [String.toList_append, List.mem_append] at hc
    exact .inl (hc.elim (hpascal c) (List.all_eq_true.1 hvalue c))
  | dart =>
    simp only [derivedWord, Option.ite_none_left_eq_some, Option.some.injEq] at h
    obtain ⟨-, rfl⟩ := h
    exact .inl (hpascal c hc)

theorem isPlain_numberedWord (y : Dialect) (n : Nat) : Text.IsPlain (y.numberedWord n) := by
  have hdigits : Text.IsPlain (toString n) :=
    fun c hc => Text.plain_of_isDigit (Json.allDigits_toString n c hc)
  have hoption : ∀ option ∈ ["option", "Option"], option.toList.all Text.isPlainAlphanumeric := by
    decide
  intro c hc
  cases y with
  | swift =>
    rw [numberedWord, String.toList_append, List.mem_append] at hc
    exact hc.elim (List.all_eq_true.1 (hoption "option" (by simp)) c) (hdigits c)
  | kotlin | dart =>
    rw [numberedWord, String.toList_append, List.mem_append] at hc
    exact hc.elim (List.all_eq_true.1 (hoption "Option" (by simp)) c) (hdigits c)

theorem of_mem_variantWords {members : List String} (h : word ∈ y.variantWords members)
    (hc : c ∈ word.toList) : Text.isPlainAlphanumeric c ∨ c = '`' := by
  rcases of_mem_variantNames h with hderived | ⟨n, -, rfl⟩
  · obtain ⟨type, -, htype⟩ := List.mem_map.1 hderived
    exact of_mem_derivedWord htype hc
  · exact .inl (isPlain_numberedWord y n c hc)

/-! ## Reading -/

/-- What stands in front of the variants. -/
def alternativesStart : Dialect → (hint : String) → String
  | swift, hint => "enum " ++ hint ++ " \x7b"
  | kotlin, hint => "sealed interface " ++ hint ++ " \x7b"
  | dart, hint =>
    Text.unlines ["sealed class " ++ hint ++ " \x7b", "  const " ++ hint ++ "();", "\x7d"]

/-- What stands behind the variants. -/
def alternativesEnd : Dialect → String
  | swift | kotlin => "\n\x7d"
  | dart => ""

/-- What stands in front of the word for a variant. -/
def variantStart : Dialect → (hint : String) → String
  | swift, _ => "\n    case "
  | kotlin, _ => "\n    data class "
  | dart, hint => "\n\nfinal class " ++ hint

/-- What ends the name of a variant. -/
def nameEnd : Dialect → String
  | swift | kotlin => "("
  | dart => " extends "

/-- What stands behind the name of a variant: it holds a value of the given type. -/
def variantEnd : Dialect → (hint name type : String) → String
  | swift, _, _, type => type ++ ")"
  | kotlin, hint, _, type => "val value: " ++ type ++ ") : " ++ hint
  | dart, hint, name, type => hint ++ Text.unlines
    [" \x7b", "  const " ++ name ++ "(this.value);", "  final " ++ type ++ " value;", "\x7d"]

/-- Reads variants for the given types, and after them what ends the declaration. -/
def readVariants (y : Dialect) (hint : String) : List String → String → Option (List String)
  | [], text => if text = y.alternativesEnd then some [] else none
  | type :: types, text => do
    let (word, rest) ← Text.cut? y.nameEnd (← Text.dropFront? (y.variantStart hint) text)
    let name := y.variantPrefix hint ++ word
    let rest ← Text.dropFront? (y.variantEnd hint name type) rest
    some (name :: (← readVariants y hint types rest))

/-- The names of the variants in a declaration of alternatives, if it has one for each of the given
types, in their order. The types may be any texts, even such as look like variants. -/
def readAlternatives (y : Dialect) (hint : String) (types : List String) (source : String) :
    Option (List String) := do
  y.readVariants hint types (← Text.dropFront? (y.alternativesStart hint) source)

/-! ## Declarations -/

/-- The text of a variant. -/
def variantText (y : Dialect) (hint word type : String) : String :=
  y.variantStart hint ++ (word ++ (y.nameEnd ++
    y.variantEnd hint (y.variantPrefix hint ++ word) type))

/-- The names of classes in Dart are the words, with the name of the alternatives in front. -/
theorem dart_alternativeNames (hint : String) (members : List String) :
    Dart.alternativeNames hint members = (dart.variantWords members).map (hint ++ ·) := by
  have hinjective : Function.Injective (hint ++ ·) := fun _ _ => (String.append_right_inj hint).1
  have hderived : (members.map fun type =>
      let letters := typeLetters type
      if letters.isEmpty then none else some (hint ++ Text.pascal letters)) =
        (members.map dart.derivedWord).map (Option.map (hint ++ ·)) := by
    rw [List.map_map]
    refine List.map_congr_left fun type _ => ?_
    simp only [derivedWord, Function.comp_apply]
    split <;> rfl
  have hnumbered : (fun n : Nat => hint ++ "Option" ++ toString n) =
      fun n => hint ++ dart.numberedWord n := by
    funext n
    rw [numberedWord, String.append_assoc]
  rw [Dart.alternativeNames, hderived, hnumbered, variantWords]
  exact variantNames_map hinjective []

/-- What is declared are the texts of the variants one after the other. -/
theorem alternatives_eq (y : Dialect) (hint : String) (members : List String) :
    y.language.alternatives hint members = y.alternativesStart hint ++
      (Text.join "" ((y.variantWords members).zipWith (y.variantText hint) members) ++
        y.alternativesEnd) := by
  cases y with
  | swift =>
    have hline : (fun word type => "\n" ++ ("    case " ++ word ++ "(" ++ type ++ ")")) =
        swift.variantText hint := by
      funext word type
      have hstart : "\n    case " = "\n" ++ "    case " := rfl
      simp only [variantText, variantStart, nameEnd, variantEnd, hstart, String.append_assoc]
    change Text.unlines (_ :: (((swift.variantWords members).zipWith _ members) ++ ["\x7d"])) = _
    rw [Text.unlines, Text.join_cons_eq, List.map_append, List.map_singleton,
      Text.join_nothing_concat, List.map_zipWith, hline]
    rfl
  | kotlin =>
    have hline : (fun word type => "\n" ++ ("    data class " ++ word ++ "(val value: " ++ type ++
        ") : " ++ hint)) = kotlin.variantText hint := by
      funext word type
      have hstart : "\n    data class " = "\n" ++ "    data class " := rfl
      have hfield : "(val value: " = "(" ++ "val value: " := rfl
      simp only [variantText, variantStart, nameEnd, variantEnd, hstart, hfield,
        String.append_assoc]
    change Text.unlines (_ :: (((kotlin.variantWords members).zipWith _ members) ++ ["\x7d"])) = _
    rw [Text.unlines, Text.join_cons_eq, List.map_append, List.map_singleton,
      Text.join_nothing_concat, List.map_zipWith, hline]
    rfl
  | dart =>
    have hclass : (fun word type => "\n\n" ++ Dart.alternativeClass hint (hint ++ word) type) =
        dart.variantText hint := by
      funext word type
      have hstart : "\n\nfinal class " = "\n\n" ++ "final class " := rfl
      rw [Dart.alternativeClass, Text.unlines_cons _ (List.cons_ne_nil _ _), variantText, variantEnd,
        Text.unlines_cons " \x7b" (List.cons_ne_nil _ _), variantStart, hstart]
      simp only [variantPrefix, nameEnd, String.append_assoc]
    change Dart.alternatives hint members = _
    rw [Dart.alternatives, Text.join_cons_eq, dart_alternativeNames, List.zipWith_map_left,
      List.map_zipWith, hclass, alternativesEnd, String.append_empty]
    rfl

theorem readVariants_texts (y : Dialect) (hint : String) {words types : List String}
    (hlength : words.length = types.length)
    (hwords : ∀ word ∈ words, ∀ c ∈ word.toList, Text.isPlainAlphanumeric c ∨ c = '`') :
    y.readVariants hint types (Text.join "" (words.zipWith (y.variantText hint) types) ++
      y.alternativesEnd) = some (words.map (y.variantPrefix hint ++ ·)) := by
  induction types generalizing words with
  | nil =>
    obtain rfl := List.length_eq_zero_iff.1 hlength
    rw [readVariants, if_pos]
    · rfl
    · exact String.empty_append
  | cons type types ih =>
    obtain ⟨word, words, rfl⟩ := List.exists_cons_of_length_eq_add_one hlength
    obtain ⟨hword, hwords⟩ := List.forall_mem_cons.1 hwords
    have hrest := ih (Nat.succ.inj hlength) hwords
    -- the name ends before the first character that does not belong to words
    have hend : ∃ c ∈ y.nameEnd.toList, c ∉ word.toList := by
      cases y with
      | swift | kotlin =>
        exact ⟨'(', List.mem_cons_self, fun h => absurd (hword _ h) (by decide)⟩
      | dart => exact ⟨' ', List.mem_cons_self, fun h => absurd (hword _ h) (by decide)⟩
    obtain ⟨c, hc, hfree⟩ := hend
    have htext : Text.join "" ((word :: words).zipWith (y.variantText hint) (type :: types)) ++
        y.alternativesEnd = y.variantStart hint ++ (word ++ y.nameEnd ++
          (y.variantEnd hint (y.variantPrefix hint ++ word) type ++
            (Text.join "" (words.zipWith (y.variantText hint) types) ++ y.alternativesEnd))) := by
      apply String.toList_injective
      simp [Text.toList_join_nothing, variantText]
    rw [readVariants, htext, Text.dropFront?_append]
    simp only [Option.bind_eq_bind, Option.bind_some, Text.cut?_append hc hfree,
      Text.dropFront?_append, hrest, List.map_cons]

/-- What is declared for members is read as one variant for each of them. -/
theorem readAlternatives_alternatives (y : Dialect) (hint : String) (members : List String) :
    y.readAlternatives hint members (y.language.alternatives hint members) =
      some ((y.variantWords members).map (y.variantPrefix hint ++ ·)) := by
  rw [readAlternatives, alternatives_eq, Text.dropFront?_append, Option.bind_eq_bind,
    Option.bind_some, readVariants_texts y hint (length_variantWords y members)]
  exact fun word hword c hc => of_mem_variantWords hword hc

end Reading.Dialect

end DesignSystem
