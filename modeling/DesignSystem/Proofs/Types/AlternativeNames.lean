import DesignSystem.Proofs.Json.Number
import DesignSystem.Proofs.Reading.Alternatives
import DesignSystem.Proofs.Types.Declared
import DesignSystem.Proofs.Types.Scope

/-!
# The names of declared variants

Alternatives without a common type are declared under their name, with a variant for each member. A
number goes unchecked into the name of a variant, and so two variants have one name if the type of a
member before has the letters of `Option` and this number. A member may have a type that is declared
for it, under a name that ends in `Option` and its own number. Of all other types in languages with
named types, only that of a record can have such letters.

* `SpellsOption`: the letters and digits of a text are those of `Option` and a number.
* `NominalLanguage.Told`: what the letters of a type tell. `Assigns.told` says it of all types.
* `eq_of_spellsOption`: the number that is spelled is that of the member, unless its type is that of
  a record.
* `declared_alternatives`: what is declared for alternatives under their name.
* `Dialect.Collides`: a number makes the name of a variant before.
* `variants_distinct`: when the names of the variants are different.
-/

set_option autoImplicit false

namespace DesignSystem

open Layout (digitsOf)

/-! ## Letters -/

/-- A character occurs in a text that is neither a letter of `option` nor a digit. -/
def HasOtherLetter (text : String) : Prop :=
  ∃ c ∈ Text.letters text, c ∉ "option0123456789".toList

instance (text : String) : Decidable (HasOtherLetter text) :=
  decidable_of_iff ((Text.letters text).any fun c => !"option0123456789".toList.contains c)
    (by simp [HasOtherLetter])

/-- The letters and digits of a text are those of `Option` and a number, whatever their case and
whatever stands between them. -/
def SpellsOption (text : String) (n : ℕ) : Prop :=
  Text.letters text = "option".toList ++ digitsOf n

/-- A name goes on from another one, if at all, with something that has a letter. -/
def Continues (hint name : String) : Prop :=
  ∃ more, name = hint ++ more ∧ (more = "" ∨ ∃ c ∈ Text.letters more, c.isDigit = false)

section
variable {s t hint name : String} {n : ℕ}

theorem HasOtherLetter.append_left (h : HasOtherLetter s) : HasOtherLetter (s ++ t) := by
  obtain ⟨c, hc, hother⟩ := h
  exact ⟨c, by rw [Text.letters_append]; exact List.mem_append_left _ hc, hother⟩

theorem HasOtherLetter.append_right (h : HasOtherLetter t) : HasOtherLetter (s ++ t) := by
  obtain ⟨c, hc, hother⟩ := h
  exact ⟨c, by rw [Text.letters_append]; exact List.mem_append_right _ hc, hother⟩

theorem HasOtherLetter.not_spellsOption (h : HasOtherLetter s) : ¬ SpellsOption s n := by
  obtain ⟨c, hc, hother⟩ := h
  intro hspells
  rw [hspells] at hc
  refine hother (List.mem_append.2 ((List.mem_append.1 hc).imp_right fun hdigit => ?_))
  have hall : ∀ c, c.toNat < 128 → c.isDigit → c ∈ "0123456789".toList := fun c =>
    Text.of_ascii (P := fun c => c.isDigit → c ∈ "0123456789".toList) (by decide +kernel)
  have hd := Json.allDigits_digitsOf n c hdigit
  exact hall c (Text.isPrintable_of_plain (Text.plain_of_isDigit hd)).lt hd

theorem letters_toString (n : ℕ) : Text.letters (toString n) = digitsOf n := by
  have hdigit := Json.allDigits_digitsOf n
  rw [Text.letters, Json.toList_toString,
    List.filter_eq_self.2 fun c hc => Text.plain_of_isDigit (hdigit c hc)]
  exact (List.map_congr_left fun c hc => (Text.isCaseless_of_isDigit (hdigit c hc)).lower).trans
    (List.map_id _)

theorem Continues.refl (hint : String) : Continues hint hint := ⟨"", String.append_empty.symm, .inl rfl⟩

theorem Continues.hasOtherLetter (h : Continues hint name) (hhint : HasOtherLetter hint) :
    HasOtherLetter name := by
  obtain ⟨more, rfl, -⟩ := h
  exact hhint.append_left

/-! ## Names of members -/

open NominalLanguage (optionHint)

variable {index : ℕ}

theorem letters_optionHint (hint : String) (index : ℕ) :
    Text.letters (optionHint hint index) =
      Text.letters hint ++ ("option".toList ++ digitsOf (index + 1)) := by
  rw [optionHint, Text.letters_append, Text.letters_append, letters_toString, List.append_assoc]
  rfl

theorem Continues.of_optionHint (h : Continues (optionHint hint index) name) :
    Continues hint name := by
  obtain ⟨more, rfl, -⟩ := h
  refine ⟨"Option" ++ toString (index + 1) ++ more, ?_, .inr ⟨'o', ?_, rfl⟩⟩
  · simp only [optionHint, String.append_assoc]
  · rw [Text.letters_append, Text.letters_append]
    exact List.mem_append_left _ (List.mem_append_left _ List.mem_cons_self)

/-- A name that goes on from that of a member can only spell the number of this member. There is no
place for further letters, and so the name that the member's name goes on from has none at all. -/
theorem Continues.eq_of_spellsOption (h : Continues (optionHint hint index) name)
    (hspells : SpellsOption name n) : n = index + 1 := by
  obtain ⟨more, rfl, hmore⟩ := h
  rw [SpellsOption, Text.letters_append, letters_optionHint] at hspells
  have hdigits : ∀ n, (digitsOf n).countP (!·.isDigit) = 0 := fun n =>
    List.countP_eq_zero.2 fun c hc => by simp [Json.allDigits_digitsOf n c hc]
  have hcount := congrArg (List.countP (!·.isDigit)) hspells
  simp only [List.countP_append, hdigits] at hcount
  obtain rfl : more = "" := by
    refine hmore.resolve_right ?_
    rintro ⟨c, hc, hletter⟩
    have hzero : (Text.letters more).countP (!·.isDigit) = 0 := by omega
    have := List.countP_eq_zero.1 hzero c hc
    simp [hletter] at this
  have hhint : Text.letters hint = [] := by
    have hzero : (Text.letters hint).countP (!·.isDigit) = 0 := by omega
    cases hletters : Text.letters hint with
    | nil => rfl
    | cons c cs =>
      rw [hletters] at hspells hzero
      obtain rfl : c = 'o' := (List.cons.inj hspells).1
      exact absurd (List.countP_eq_zero.1 hzero 'o' List.mem_cons_self) (by decide)
  have hempty : Text.letters "" = [] := rfl
  rw [hhint, hempty, List.nil_append, List.append_nil] at hspells
  exact (Json.digitsOf_injective (List.append_cancel_left hspells)).symm

end

/-! ## What the letters of a type tell -/

/-- The type of a descriptor can be that of a record: it is an object without unknown fields, or
there is one among the alternatives. -/
inductive TypeDescriptor.MayBeRecord : TypeDescriptor → Prop
  | object (properties : List (String × TypeDescriptor)) : MayBeRecord (.object properties true)
  | union {types : List TypeDescriptor} {d : TypeDescriptor} (hd : d ∈ types) (h : MayBeRecord d) :
      MayBeRecord (.union types)

namespace NominalLanguage

/-- The type of an object that needs no declaration. -/
def IsRecord (l : NominalLanguage) (type : String) : Prop :=
  ∃ hint fields, (l.object hint fields).source = none ∧ type = (l.object hint fields).text

/-- What a language writes has other letters than `Option`, but for the names of declared types and
the types of records. -/
structure Telling (l : NominalLanguage) : Prop where
  primitive : ∀ kind, HasOtherLetter (l.primitive kind)
  complex : ∀ kind, HasOtherLetter (l.complex kind)
  custom : ∀ kind, HasOtherLetter (l.custom kind)
  noResult : HasOtherLetter l.noResult
  callback : ∀ params {returns}, HasOtherLetter returns ∨ l.IsRecord returns →
    HasOtherLetter (l.callback params returns)
  list : ∀ {item}, HasOtherLetter item ∨ l.IsRecord item → HasOtherLetter (l.list item)
  openObject : HasOtherLetter l.openObject

/-- What the letters of a type that a descriptor has under a name tell. -/
inductive Told (l : NominalLanguage) (d : TypeDescriptor) (hint type : String) : Prop
  | letter (h : HasOtherLetter type)
  | name (h : Continues hint type)
  | record (hd : d.MayBeRecord) (h : l.IsRecord type)

/-- Under a name with other letters, no name of a declared type has the letters of `Option`. -/
theorem Told.of_hint {l : NominalLanguage} {d : TypeDescriptor} {hint type : String}
    (h : l.Told d hint type) (hhint : HasOtherLetter hint) :
    HasOtherLetter type ∨ l.IsRecord type := by
  cases h with
  | letter h => exact .inl h
  | name h => exact .inl (h.hasOtherLetter hhint)
  | record _ h => exact .inr h

section
variable {l : NominalLanguage} (hl : l.Telling)
include hl

/-- What is said of the types of all parts, under their own names, holds of the whole type. -/
theorem Assigns.told {ds : List Declaration} {d : TypeDescriptor} {hint type : String}
    (h : l.Assigns ds d hint type) : l.Told d hint type := by
  induction h with
  | @primitive kind => exact .letter (hl.primitive kind)
  | @custom kind => exact .letter (hl.custom kind)
  | truth => exact .letter (hl.primitive .boolean)
  | complex kind | @signed kind => exact .letter (hl.complex kind)
  | enumeration | alternatives | object => exact .name (.refl _)
  | action => exact .letter (hl.callback _ (.inl hl.noResult))
  | callback _ _ _ ihr =>
    have hresult : HasOtherLetter "Result" := by decide
    exact .letter (hl.callback _ (ihr.of_hint hresult.append_right))
  | common _ hcommon ih =>
    -- the common type is that of a member, under the name that is extended for it
    obtain ⟨⟨d, index⟩, hmem, rfl⟩ := List.mem_map.1 (mem_of_commonMember? hcommon)
    cases ih _ hmem with
    | letter h => exact .letter h
    | name h => exact .name h.of_optionHint
    | record hrecord h => exact .record (.union (List.fst_mem_of_mem_zipIdx hmem) hrecord) h
  | list _ ih =>
    have hitem : HasOtherLetter "Item" := by decide
    exact .letter (hl.list (ih.of_hint hitem.append_right))
  | openObject => exact .letter hl.openObject
  | record _ hsource => exact .record (.object _) ⟨_, _, hsource, rfl⟩

/-- The number that the type of a member spells is that of the member, unless the type is that of a
record. -/
theorem eq_of_spellsOption {d : TypeDescriptor} {hint type : String} {index n : ℕ}
    (h : (l.map d (optionHint hint index)).result = .ok type) (hspells : SpellsOption type n) :
    n = index + 1 ∨ d.MayBeRecord ∧ l.IsRecord type := by
  cases (assigns_iff.2 h).told hl with
  | letter h => exact absurd hspells h.not_spellsOption
  | name h => exact .inl (h.eq_of_spellsOption hspells)
  | record hd h => exact .inr ⟨hd, h⟩

end

end NominalLanguage

theorem telling_swift : Swift.language.Telling where
  primitive kind := by cases kind <;> decide
  complex kind := by cases kind <;> decide
  custom kind := by
    cases kind with
    | color | url => decide
    | _ =>
      change HasOtherLetter "String"
      decide
  noResult := by decide
  callback params returns h := by
    refine h.elim (fun h => h.append_right) ?_
    rintro ⟨hint, fields, hsource, -⟩
    cases hsource
  list {item} h := by
    rcases h with h | ⟨hint, fields, hsource, -⟩
    · exact h.append_right.append_left
    · cases hsource
  openObject := by decide

theorem telling_kotlin : Kotlin.language.Telling where
  primitive kind := by cases kind <;> decide
  complex kind := by cases kind <;> decide
  custom kind := by
    cases kind with
    | color => decide
    | _ =>
      change HasOtherLetter "String"
      decide
  noResult := by decide
  callback params returns h := by
    refine h.elim (fun h => h.append_right) ?_
    rintro ⟨hint, fields, hsource, -⟩
    cases hsource
  list {item} _ := by
    have hlist : HasOtherLetter "List<" := by decide
    exact hlist.append_left.append_left
  openObject := by decide

theorem telling_dart : Dart.language.Telling where
  primitive kind := by cases kind <;> decide
  complex kind := by cases kind <;> decide
  custom kind := by
    cases kind with
    | color | url => decide
    | _ =>
      change HasOtherLetter "String"
      decide
  noResult := by decide
  callback params returns _ := by
    have hfunction : HasOtherLetter " Function(" := by decide
    exact hfunction.append_right.append_left.append_left
  list {item} _ := by
    have hlist : HasOtherLetter "List<" := by decide
    exact hlist.append_left.append_left
  openObject := by decide

/-! ## Declarations -/

/-- Alternatives without a common type have the declared type, which no type inside them takes the
name of. -/
theorem NominalLanguage.declared_alternatives {l : NominalLanguage} {types : List TypeDescriptor}
    {hint type : String} (hmap : (l.map (.union types) hint).result = .ok type)
    (hapart : l.hasCommonType types hint = false) :
    type = hint ∧ ∃ members, (l.mapAlternatives types hint 0).result = .ok members ∧
      Entries.get? hint (TypeScope.declareAll [] (l.map (.union types) hint).declared) =
        some (l.alternatives hint members) := by
  rw [map] at hmap ⊢
  split at hmap
  · cases hmap
  · next hne =>
    rw [if_neg hne]
    obtain ⟨members, hmembers, hunion, hdeclared⟩ := Mapping.bind_inversion hmap
    have hcommon : commonMember? members = none := by
      rw [hasCommonType, hmembers] at hapart
      simpa using hapart
    have hown : l.unionType members hint = .declare ⟨hint, l.alternatives hint members⟩ := by
      rw [unionType, hcommon]
    rw [hown] at hunion hdeclared
    cases hunion
    refine ⟨rfl, members, hmembers, ?_⟩
    have hinside : ∀ d ∈ (l.mapAlternatives types hint 0).declared, d.name ≠ hint := by
      have hextended : "" ∉ (parts (.union types)).map (·.1) := by
        simp [parts]
      intro d hd hname
      exact notMem_declaredByParts hextended
        (hname ▸ List.mem_map_of_mem ((mapAlternatives_declared types 0).subset hd))
    rw [hdeclared, TypeScope.get?_declareAll, List.find?_append,
      List.find?_eq_none.2 fun d hd => by simpa using hinside d hd]
    simp [Mapping.declare, Entries.get?_nil]

namespace Reading.Dialect

open NominalLanguage (mapAlternatives_getElem? declared_alternatives)

variable {y : Dialect} {hint type : String} {n : ℕ} {types : List TypeDescriptor}
  {members : List String}

theorem telling : ∀ y : Dialect, y.language.Telling
  | swift => telling_swift
  | kotlin => telling_kotlin
  | dart => telling_dart

/-- Only in Dart objects need no declaration. -/
theorem eq_dart_of_isRecord (h : y.language.IsRecord type) : y = dart := by
  obtain ⟨hint, fields, hsource, -⟩ := h
  cases y with
  | swift | kotlin => cases hsource
  | dart => rfl

/-! ## Words with a number -/

theorem spellsOption_numberedWord (y : Dialect) (n : ℕ) : SpellsOption (y.numberedWord n) n := by
  cases y <;>
    rw [SpellsOption, numberedWord, Text.letters_append, letters_toString] <;> rfl

/-- A type that gives a word with a number has the letters of this word. In Kotlin there is no such
type: the word ends in `Value`. -/
theorem spellsOption_of_derivedWord (h : y.derivedWord type = some (y.numberedWord n)) :
    SpellsOption type n := by
  have hspells := spellsOption_numberedWord y n
  cases y with
  | swift =>
    simp only [derivedWord, Option.ite_none_left_eq_some, Option.some.injEq] at h
    obtain ⟨-, hword⟩ := h
    have hbare : Swift.ident (Text.camel (Swift.typeWords type)) =
        Text.camel (Swift.typeWords type) := by
      unfold Swift.ident at hword ⊢
      split at hword
      · have htick : '`' ∈ (swift.numberedWord n).toList := by
          rw [← hword]
          simp [Swift.escapeReserved]
        exact absurd (isPlain_numberedWord swift n '`' htick) (by decide)
      · next hreserved => exact if_neg hreserved
    rwa [← hword, hbare, SpellsOption, Text.letters_camel fun c hc =>
      Text.isPrintable_of_plain_or_separator (of_mem_typeWords hc), letters_typeWords] at hspells
  | kotlin =>
    simp only [derivedWord, Option.ite_none_left_eq_some, Option.some.injEq] at h
    obtain ⟨-, hword⟩ := h
    have hvalue : HasOtherLetter "Value" := by decide
    exact absurd (hword ▸ hspells) hvalue.append_right.not_spellsOption
  | dart =>
    simp only [derivedWord, Option.ite_none_left_eq_some, Option.some.injEq] at h
    obtain ⟨-, hword⟩ := h
    rwa [← hword, SpellsOption, Text.pascal, Text.letters_apply rfl fun c hc =>
      Text.isPrintable_of_plain (isPlain_typeLetters type c hc), letters_typeLetters] at hspells

/-! ## Variants of one name -/

/-- A member of alternatives gets its number instead of a name of its own, and the number makes the
name of a member before it. -/
def Collides (y : Dialect) (members : List String) : Prop :=
  ∃ before type, before ++ [type] <+: members ∧
    GivesWay (y.variantWords before) (y.derivedWord type) ∧
      ∃ earlier ∈ before, y.derivedWord earlier = some (y.numberedWord (before.length + 1))

theorem nodup_variantWords_iff : (y.variantWords members).Nodup ↔ ¬ y.Collides members := by
  rw [variantWords, nodup_variantNames_iff y.numberedWord_injective]
  constructor
  · rintro h ⟨before, type, hprefix, hway, earlier, hearlier, hword⟩
    refine h (before.map y.derivedWord) (y.derivedWord type) ?_ hway ?_
    · rw [← List.map_singleton, ← List.map_append]
      exact hprefix.map _
    · rw [List.length_map, ← hword]
      exact List.mem_map_of_mem hearlier
  · intro h words d hprefix hway hword
    obtain ⟨front, hfront, hwords⟩ := List.prefix_map_iff.1 hprefix
    obtain ⟨before, last, rfl, rfl, hlast⟩ := List.append_eq_map_iff.1 hwords
    obtain ⟨type, rfl, rfl⟩ := List.map_eq_singleton_iff.1 hlast
    obtain ⟨earlier, hearlier, heq⟩ := List.mem_map.1 hword
    rw [List.length_map] at heq
    exact h ⟨before, type, hfront, hway, earlier, hearlier, heq⟩

/-- Members collide only in Dart, and only if the type of a member is that of a record: all other
types that have the letters of a number are named for this number. -/
theorem exists_record_of_collides
    (hmembers : (y.language.mapAlternatives types hint 0).result = .ok members)
    (h : y.Collides members) : y = dart ∧ ∃ d ∈ types, d.MayBeRecord := by
  obtain ⟨before, type, ⟨rest, rfl⟩, -, earlier, hearlier, hword⟩ := h
  obtain ⟨i, hi, hget⟩ := List.mem_iff_getElem.1 hearlier
  have hmember : (before ++ [type] ++ rest)[i]? = some earlier := by
    rw [List.append_assoc, List.getElem?_append_left hi, List.getElem?_eq_getElem hi, hget]
  obtain ⟨d, hd, hmap⟩ := (mapAlternatives_getElem? hmembers).2 i earlier hmember
  rcases NominalLanguage.eq_of_spellsOption (telling y) hmap (spellsOption_of_derivedWord hword)
    with hnumber | ⟨hrecord, htype⟩
  · omega
  · exact ⟨eq_dart_of_isRecord htype, d, List.mem_of_getElem? hd, hrecord⟩

/-- What is declared under the name of alternatives in an empty scope, read as one variant for each
of the members: the names of the variants. -/
def declaredVariants (y : Dialect) (types : List TypeDescriptor) (hint : String)
    (members : List String) : Option (List String) := do
  y.readAlternatives hint members
    (← Entries.get? hint (TypeScope.declareAll [] (y.language.map (.union types) hint).declared))

theorem declaredVariants_eq (hmap : (y.language.map (.union types) hint).result = .ok type)
    (hapart : y.language.hasCommonType types hint = false) :
    type = hint ∧ ∃ members, (y.language.mapAlternatives types hint 0).result = .ok members ∧
      y.declaredVariants types hint members =
        some ((y.variantWords members).map (y.variantPrefix hint ++ ·)) := by
  obtain ⟨htype, members, hmembers, hdeclared⟩ := declared_alternatives hmap hapart
  refine ⟨htype, members, hmembers, ?_⟩
  rw [declaredVariants, hdeclared]
  exact readAlternatives_alternatives y hint members

/-- **Alternatives that are declared have one variant for each member, in their order, and the
variants have different names unless members collide.** In Swift and Kotlin no members do. In Dart it
takes a member with the type of a record, since only such a type can have the letters of `Option` and
the number of another member. -/
theorem variants_distinct (hmap : (y.language.map (.union types) hint).result = .ok type)
    (hapart : y.language.hasCommonType types hint = false) :
    type = hint ∧ ∃ members names,
      (y.language.mapAlternatives types hint 0).result = .ok members ∧
      members.length = types.length ∧
      y.declaredVariants types hint members = some names ∧ names.length = types.length ∧
      (names.Nodup ↔ ¬ y.Collides members) ∧
      (y ≠ dart → names.Nodup) ∧
      ((∀ d ∈ types, ¬ d.MayBeRecord) → names.Nodup) := by
  obtain ⟨htype, members, hmembers, hdeclared⟩ := declaredVariants_eq hmap hapart
  have hlength := (mapAlternatives_getElem? hmembers).1
  have hnodup : ((y.variantWords members).map (y.variantPrefix hint ++ ·)).Nodup ↔
      ¬ y.Collides members := by
    rw [List.nodup_map_iff fun _ _ => (String.append_right_inj _).1, nodup_variantWords_iff]
  refine ⟨htype, members, _, hmembers, hlength, hdeclared, ?_, hnodup, fun hy => ?_, fun hd => ?_⟩
  · rw [List.length_map, length_variantWords, hlength]
  · exact hnodup.2 fun hcollides => hy (exists_record_of_collides hmembers hcollides).1
  · refine hnodup.2 fun hcollides => ?_
    obtain ⟨-, d, hmem, hrecord⟩ := exists_record_of_collides hmembers hcollides
    exact hd d hmem hrecord

/-- Ways to reach someone, two of which have the type of texts. -/
def contacts : List TypeDescriptor :=
  [.custom .email none, .primitive .number none, .primitive .string none]

theorem variants_distinct_contacts : ∃ members names,
    (kotlin.language.mapAlternatives contacts "Contact" 0).result = .ok members ∧
      kotlin.declaredVariants contacts "Contact" members = some names ∧ names.length = 3 ∧
      names.Nodup := by
  have hmap : (kotlin.language.map (.union contacts) "Contact").result = .ok "Contact" := rfl
  obtain ⟨-, members, names, hmembers, -, hnames, hlength, -, hnodup, -⟩ :=
    variants_distinct hmap rfl
  exact ⟨members, names, hmembers, hnames, hlength, hnodup nofun⟩

/-- What a card shows: a record with another one in its field, or none. -/
def cardContents : List TypeDescriptor :=
  [.object [("option2", .object [] true)] true, .object [] true]

/-- The type of the first member is a record with a field `option2`. That of the second one has no
letters, and so the variant gets its number: both have one name. -/
theorem variants_distinct_cardContents :
    (TypeDescriptor.union cardContents).issues = [] ∧
      (dart.language.map (.union cardContents) "Card").result = .ok "Card" ∧
      ∃ members names, (dart.language.mapAlternatives cardContents "Card" 0).result = .ok members ∧
        dart.declaredVariants cardContents "Card" members = some names ∧
        names = ["CardOption2", "CardOption2"] ∧ ¬ names.Nodup := by
  have hmap : (dart.language.map (.union cardContents) "Card").result = .ok "Card" := rfl
  obtain ⟨-, members, hmembers, hnames⟩ := declaredVariants_eq hmap rfl
  have hrecords : members = ["(\x7b() option2\x7d)", "()"] := by
    cases hmembers
    rfl
  subst hrecords
  refine ⟨rfl, hmap, _, _, hmembers, hnames, ?_⟩
  have hwords : dart.variantWords ["(\x7b() option2\x7d)", "()"] = ["Option2", "Option2"] := by
    decide +kernel
  rw [hwords]
  exact ⟨rfl, by decide⟩

end Reading.Dialect

end DesignSystem
