import DesignSystem.Proofs.Types.LiteralType

/-!
# Values that fit have literals of the type

A value fits alternatives if it fits one of them, but is written for the first. Where all have one
type, the type itself tells what the value is.

* `Dialect.Holds`: what a type tells about the values that fit a descriptor mapped to it.
* `holds_of_fits`: it is true of all of them.
* `covers_of_holds`: what a type tells is enough for a literal of this type.
* `covers_of_fits`: so values that fit have literals of the type, if there are no framework values.
* `Dialect.literal_typed`: when literals have the type that their descriptor is mapped to.
-/

set_option autoImplicit false

namespace DesignSystem

open Reading

namespace Reading.Dialect

open NominalLanguage (itemHint optionHint)

variable {y : Dialect} {d : TypeDescriptor} {v : Json.Value} {hint type text : String}

/-! ## Names under which types are declared -/

/-- The names that a name is extended to for alternatives and items. -/
inductive Extends (base : String) : String → Prop
  | self : Extends base base
  | item {name : String} (h : Extends base name) : Extends base (itemHint name)
  | option {name : String} (h : Extends base name) (index : Nat) :
      Extends base (optionHint name index)

variable {base name : String}

theorem Extends.trans {mid : String} (h : Extends base mid) (h' : Extends mid name) :
    Extends base name := by
  induction h' with
  | self => exact h
  | item _ ih => exact .item ih
  | option _ index ih => exact .option ih index

theorem Extends.ending (h : Extends base name) (hbase : ending base = .name) :
    ending name = .name := by
  cases h with
  | self => exact hbase
  | item => exact ending_itemHint _
  | option => exact ending_optionHint _ _

/-- What a name is extended by does not go on with a number before it. -/
theorem Extends.exists_rest (h : Extends base name) :
    ∃ rest : List Char, name.toList = base.toList ++ rest ∧ ∀ c ∈ rest.head?, c.isDigit = false := by
  have hmore : ∀ {rest more : List Char}, (∀ c ∈ rest.head?, c.isDigit = false) →
      (∀ c ∈ more.head?, c.isDigit = false) → ∀ c ∈ (rest ++ more).head?, c.isDigit = false := by
    intro rest more hrest hmore
    cases rest with
    | nil => exact hmore
    | cons c rest => exact hrest
  induction h with
  | self => exact ⟨[], by simp, by simp⟩
  | @item name _ ih =>
    obtain ⟨rest, hname, hrest⟩ := ih
    refine ⟨rest ++ "Item".toList, ?_, hmore hrest (by rintro c ⟨⟩; rfl)⟩
    rw [itemHint, String.toList_append, hname, List.append_assoc]
  | @option name _ index ih =>
    obtain ⟨rest, hname, hrest⟩ := ih
    refine ⟨rest ++ ("Option".toList ++ (toString (index + 1)).toList), ?_,
      hmore hrest (by rintro c ⟨⟩; rfl)⟩
    rw [optionHint, String.toList_append, String.toList_append, hname, List.append_assoc,
      List.append_assoc]

/-- The names of two alternatives have no extension in common. -/
theorem index_eq_of_extends {i j : Nat} (hi : Extends (optionHint hint i) name)
    (hj : Extends (optionHint hint j) name) : i = j := by
  obtain ⟨rest, hrest, hhead⟩ := hi.exists_rest
  obtain ⟨rest', hrest', hhead'⟩ := hj.exists_rest
  have hdigits : ∀ (n : Nat) {rest : List Char}, (∀ c ∈ rest.head?, c.isDigit = false) →
      ((toString (n + 1)).toList ++ rest).takeWhile Char.isDigit = Layout.digitsOf (n + 1) := by
    intro n rest hhead
    rw [Json.toList_toString, List.takeWhile_append_of_pos (Json.allDigits_digitsOf _)]
    cases rest with
    | nil => simp
    | cons c rest => simp [hhead c rfl]
  have hsplit : ∀ (n : Nat) (more : List Char), (optionHint hint n).toList ++ more =
      (hint ++ "Option").toList ++ ((toString (n + 1)).toList ++ more) := by
    intro n more
    rw [optionHint, String.toList_append, List.append_assoc]
  rw [hrest, hsplit, hsplit, List.append_right_inj] at hrest'
  have hsame := congrArg (List.takeWhile Char.isDigit) hrest'
  rw [hdigits i hhead, hdigits j hhead'] at hsame
  have := Json.digitsOf_injective hsame
  omega

/-! ## What a type tells -/

/-- What a type tells about a value that fits a descriptor mapped to it. Nothing is told by the name
of a declared type. -/
inductive Holds (y : Dialect) (Declared : String → Prop) : String → Json.Value → Prop
  | scalar {kind : PrimitiveType} {v : Json.Value} (h : kind.admits v = true) :
      Holds y Declared (y.scalarType kind) v
  | custom (kind : CustomType) (s : String) : Holds y Declared (y.language.custom kind) (.string s)
  | list {item : String} {elements : List Json.Value} (h : ∀ v ∈ elements, Holds y Declared item v) :
      Holds y Declared (y.listType item) (.array elements)
  | object (type : String) (fields : List (String × Json.Value)) :
      Holds y Declared type (.object fields)
  | declared {name : String} (h : Declared name) (v : Json.Value) : Holds y Declared name v

theorem exists_fits_of_fitsAny {types : List TypeDescriptor}
    (h : TypeDescriptor.fitsAny types v = true) : ∃ d ∈ types, d.fits v = true := by
  induction types with
  | nil => cases h
  | cons d types ih =>
    rw [TypeDescriptor.fitsAny, Bool.or_eq_true] at h
    rcases h with h | h
    · exact ⟨d, List.mem_cons_self, h⟩
    · obtain ⟨d', hd', hfits⟩ := ih h
      exact ⟨d', .tail _ hd', hfits⟩

/-- Each alternative is mapped under a name of its own. -/
theorem exists_map_of_mem {types : List TypeDescriptor} {index : Nat} {members : List String}
    (h : (y.language.mapAlternatives types hint index).result = .ok members) (hd : d ∈ types) :
    ∃ i, index ≤ i ∧ ∃ member ∈ members,
      (y.language.map d (optionHint hint i)).result = .ok member := by
  obtain ⟨rfl, hall⟩ := NominalLanguage.mapAlternatives_inversion h (List.Subset.refl _)
  obtain ⟨i, hi⟩ := List.mem_iff_getElem?.1 hd
  have hplace : (d, index + i) ∈ types.zipIdx index := List.mk_add_mem_zipIdx_iff_getElem?.2 hi
  exact ⟨index + i, Nat.le_add_right _ _, _, List.mem_map_of_mem hplace, (hall _ hplace).result⟩

theorem fits_custom {kind : CustomType} {values : Option (List String)}
    (hd : TypeDescriptor.enumerated? (.custom kind values) = none)
    (h : (TypeDescriptor.custom kind values).fits v = true) : ∃ s, v = .string s := by
  unfold TypeDescriptor.fits at h
  rw [hd] at h
  cases v with
  | string s => exact ⟨s, rfl⟩
  | _ => cases h

/-- What a type tells is true of the values that fit. -/
theorem holds_of_fits (hd : d.EachWritten (·.enumerated? = none))
    (hframework : d.EachWritten (·.complexType? = none)) (hext : Extends base hint)
    (hfits : d.fits v = true) (hmap : (y.language.map d hint).result = .ok type) :
    y.Holds (Extends base) type v := by
  induction d using TypeDescriptor.induct generalizing v hint type with
  | primitive kind values =>
    have hvalues := hd.self
    obtain rfl := map_primitive hvalues hmap
    cases values with
    | some values => cases hvalues
    | none => exact .scalar hfits
  | complex | signed => cases hframework.self
  | custom kind values =>
    obtain rfl := map_custom hd.self hmap
    obtain ⟨s, rfl⟩ := fits_custom hd.self hfits
    exact .custom kind s
  | union types ih =>
    rw [NominalLanguage.map] at hmap
    split_ifs at hmap
    · cases hmap
    · obtain ⟨members, hmembers, hmap, -⟩ := Mapping.bind_inversion hmap
      unfold NominalLanguage.unionType at hmap
      split at hmap
      · next single hsingle =>
        cases hmap
        obtain ⟨d, hmem, hfit⟩ := exists_fits_of_fitsAny hfits
        obtain ⟨i, -, member, hmember, hmapped⟩ := exists_map_of_mem hmembers hmem
        rw [eq_of_commonMember? hsingle hmember] at hmapped
        exact ih d hmem (hd.member hmem) (hframework.member hmem) (.option hext i) hfit hmapped
      · cases hmap
        exact .declared hext v
  | array items low high unique ih =>
    obtain ⟨item, rfl, hitem⟩ := map_array hmap
    cases v with
    | array elements =>
      rw [TypeDescriptor.fits, List.all_eq_true] at hfits
      exact .list fun v hv => ih hd.item hframework.item (.item hext) (hfits v hv) hitem
    | _ => cases hfits
  | object properties strict =>
    cases v with
    | object fields => exact .object type fields
    | _ => cases hfits

/-! ## What is enough for a literal -/

/-- Objects have no literals. -/
theorem literal?_object (hd : d.EachWritten (·.enumerated? = none))
    (fields : List (String × Json.Value)) :
    y.language.literal? d (.object fields) hint = none := by
  induction d using TypeDescriptor.induct generalizing hint with
  | primitive kind values =>
    cases values with
    | some values => cases hd.self
    | none => rfl
  | complex | signed | array | object => rfl
  | custom kind values =>
    have hvalues := hd.self
    unfold NominalLanguage.literal?
    rw [enumerationValues, hvalues]
    cases kind.isTextual <;> cases kind <;> rfl
  | union types ih =>
    rw [NominalLanguage.literal?]
    cases types with
    | nil => split_ifs <;> rfl
    | cons first rest =>
      rw [NominalLanguage.literalOfFirst?, ih first List.mem_cons_self (hd.member List.mem_cons_self)]
      split_ifs <;> rfl

section
variable {Declared : String → Prop} (hdeclared : ∀ name, Declared name → ending name = .name)
include hdeclared

theorem Holds.of_word (h : y.Holds Declared type v) (hobject : ∀ fields, v ≠ .object fields)
    (hend : ending type = .word) : (∃ kind, type = y.scalarType kind ∧ kind.admits v = true) ∨
      ∃ kind s, type = y.language.custom kind ∧ v = .string s := by
  cases h with
  | scalar hadmits => exact .inl ⟨_, rfl, hadmits⟩
  | custom kind s => exact .inr ⟨kind, s, rfl, rfl⟩
  | list =>
    rw [ending_listType] at hend
    cases hend
  | object type fields => exact absurd rfl (hobject fields)
  | declared hname =>
    rw [hdeclared _ hname] at hend
    cases hend

theorem Holds.of_listType {item : String} (h : y.Holds Declared type v)
    (hobject : ∀ fields, v ≠ .object fields) (htype : type = y.listType item) :
    ∃ elements, v = .array elements ∧ ∀ v ∈ elements, y.Holds Declared item v := by
  have hend := congrArg Dialect.ending htype
  rw [ending_listType] at hend
  cases h with
  | list h => exact ⟨_, rfl, listType_injective htype ▸ h⟩
  | object type fields => exact absurd rfl (hobject fields)
  | scalar =>
    rw [ending_scalarType] at hend
    cases hend
  | custom =>
    rw [ending_custom] at hend
    cases hend
  | declared hname =>
    rw [hdeclared _ hname] at hend
    cases hend

/-- If nothing is declared under the name of a descriptor, then what its type tells is enough for a
literal of this type. -/
theorem covers_of_holds (hd : d.EachWritten (·.enumerated? = none))
    (hframework : d.EachWritten (·.complexType? = none))
    (hhint : ending hint = .name) (hapart : ∀ name, Extends hint name → ¬ Declared name)
    (htakes : ∀ n, v.HasNumber n → y.TakesNumber n)
    (hmap : (y.language.map d hint).result = .ok type)
    (h : y.language.literal? d v hint = some text) (hv : y.Holds Declared type v) :
    y.Covers d v := by
  have hobject : ∀ fields, v ≠ .object fields := by
    rintro fields rfl
    rw [literal?_object hd] at h
    cases h
  induction d using TypeDescriptor.induct generalizing v hint type text with
  | primitive kind values =>
    obtain rfl := map_primitive hd.self hmap
    refine ⟨?_, fun n hn => htakes n (hn ▸ .self)⟩
    rcases hv.of_word hdeclared hobject (ending_scalarType y kind) with
      ⟨scalar, heq, hadmits⟩ | ⟨custom, s, heq, rfl⟩
    · exact scalarType_injective heq ▸ hadmits
    · exact custom_eq_scalarType heq.symm ▸ rfl
  | complex | signed => cases hframework.self
  | custom kind values =>
    obtain rfl := map_custom hd.self hmap
    rcases hv.of_word hdeclared hobject (ending_custom y kind) with
      ⟨scalar, heq, hadmits⟩ | ⟨custom, s, -, rfl⟩
    · obtain rfl := custom_eq_scalarType heq
      cases v with
      | string s => exact ⟨s, rfl⟩
      | _ => cases hadmits
    · exact ⟨s, rfl⟩
  | union types ih =>
    obtain ⟨first, rest, rfl, hfirst, hliteral, -⟩ := exists_common h hmap
    exact ih first List.mem_cons_self (hd.member List.mem_cons_self)
      (hframework.member List.mem_cons_self) (ending_optionHint hint 0)
      (fun name hext => hapart name (.trans (.option .self 0) hext)) htakes hfirst hliteral hv hobject
  | array items low high unique ih =>
    obtain ⟨item, htype, hitem⟩ := map_array hmap
    obtain ⟨elements, rfl, helements⟩ := hv.of_listType hdeclared hobject htype
    obtain ⟨texts, htexts, -⟩ := Option.map_eq_some_iff.1 h
    refine ⟨elements, rfl, fun v hv => ?_⟩
    obtain ⟨text, -, hliteral⟩ := exists_of_forall₂ (forall₂_of_mapM_eq_some htexts).flip hv
    refine ih hd.item hframework.item
      (ending_itemHint hint) (fun name hext => hapart name (.trans (.item .self) hext))
      (fun n hn => htakes n (.item hv hn)) hitem hliteral (helements v hv) ?_
    rintro fields rfl
    rw [literal?_object hd.item] at hliteral
    cases hliteral
  | object properties strict =>
    have hend : ending type ≠ .word := by
      rcases map_object hmap with rfl | hmark
      · rw [hhint]
        decide
      · rw [hmark]
        decide
    cases hv with
    | scalar => exact absurd (ending_scalarType y _) hend
    | custom => exact absurd (ending_custom y _) hend
    | list => cases h
    | object type fields => exact absurd rfl (hobject fields)
    | declared hname =>
      rcases map_object hmap with rfl | hmark
      · exact absurd hname (hapart _ .self)
      · rw [hdeclared _ hname] at hmark
        cases hmark

end

/-! ## Values that fit -/

/-- A value that fits a descriptor without framework values has a literal of the type. -/
theorem covers_of_fits (hd : d.EachWritten (·.enumerated? = none))
    (hframework : d.EachWritten (·.complexType? = none)) (hfits : d.fits v = true)
    (htakes : ∀ n, v.HasNumber n → y.TakesNumber n)
    (hmap : (y.language.map d hint).result = .ok type)
    (h : y.language.literal? d v hint = some text) : y.Covers d v := by
  induction d using TypeDescriptor.induct generalizing v hint type text with
  | primitive kind values =>
    have hvalues := hd.self
    cases values with
    | some values => cases hvalues
    | none => exact ⟨hfits, fun n hn => htakes n (hn ▸ .self)⟩
  | complex | signed => cases hframework.self
  | custom kind values => exact fits_custom hd.self hfits
  | union types ih =>
    obtain ⟨first, rest, rfl, hfirst, hliteral, others, hothers, hall⟩ := exists_common h hmap
    have hd' := hd.member List.mem_cons_self
    have hframework' := hframework.member List.mem_cons_self
    rw [TypeDescriptor.fits, TypeDescriptor.fitsAny, Bool.or_eq_true] at hfits
    rcases hfits with hfit | hfit
    · exact ih first List.mem_cons_self hd' hframework' hfit htakes hfirst hliteral
    · -- the value fits another alternative, which has the same type under another name
      obtain ⟨d, hmem, hfit⟩ := exists_fits_of_fitsAny hfit
      obtain ⟨i, hi, other, hother, hmapped⟩ := exists_map_of_mem hothers hmem
      obtain rfl := hall other hother
      have hholds := holds_of_fits (hd.member (.tail _ hmem)) (hframework.member (.tail _ hmem)) .self
        hfit hmapped
      refine covers_of_holds (d := first) (fun name hext => hext.ending (ending_optionHint hint i))
        hd' hframework' (ending_optionHint hint 0)
        (fun name hfirst hext => ?_) htakes hfirst hliteral hholds
      have := index_eq_of_extends hfirst hext
      omega
  | array items low high unique ih =>
    obtain ⟨item, -, hitem⟩ := map_array hmap
    cases v with
    | array elements =>
      rw [TypeDescriptor.fits, List.all_eq_true] at hfits
      obtain ⟨texts, htexts, -⟩ := Option.map_eq_some_iff.1 h
      refine ⟨elements, rfl, fun v hv => ?_⟩
      obtain ⟨text, -, hliteral⟩ := exists_of_forall₂ (forall₂_of_mapM_eq_some htexts).flip hv
      exact ih hd.item hframework.item
        (hfits v hv) (fun n hn => htakes n (.item hv hn)) hitem hliteral
    | _ => cases hfits
  | object properties strict =>
    cases v with
    | object fields => cases h
    | _ => cases hfits

/-- The language takes all numbers in a value that has a literal of the type. -/
theorem takesNumber_of_covers {n : Json.Number} (h : y.Covers d v) (hn : v.HasNumber n) :
    y.TakesNumber n := by
  induction d using TypeDescriptor.induct generalizing v with
  | primitive kind values =>
    cases hn with
    | self => exact h.2 n rfl
    | item =>
      obtain ⟨hadmits, -⟩ := h
      cases kind <;> cases hadmits
  | complex | signed | object => exact h.elim
  | custom kind values =>
    obtain ⟨s, rfl⟩ := h
    cases hn
  | union types ih =>
    cases types with
    | nil => exact h.elim
    | cons first rest => exact ih first List.mem_cons_self h hn
  | array items low high unique ih =>
    obtain ⟨elements, rfl, hcovers⟩ := h
    cases hn with
    | item hv hn => exact ih (hcovers _ hv) hn

/-! ## Literals of the type -/

/-- **A literal has the type of its descriptor, unless it is written for a framework value, or for a
number that the language does not take as it is written.** -/
theorem literal_typed (hd : ∀ inner, d.Writes inner → inner.enumerated? = none)
    (hfits : d.fits v = true) (hmap : (y.language.map d hint).result = .ok type)
    (h : y.language.literal? d v hint = some text) :
    ∃ e : Literal, y.readLiteral text = some e ∧ (e.HasType y type ↔ y.Covers d v) ∧
      ((∀ inner, d.Writes inner → inner.complexType? = none) →
        (e.HasType y type ↔ ∀ n, v.HasNumber n → y.TakesNumber n)) := by
  have hobject : (∃ properties strict, d = .object properties strict) → ending hint ≠ .word := by
    rintro ⟨properties, strict, rfl⟩
    cases v with
    | object fields => cases h
    | _ => cases hfits
  obtain ⟨e, hreads, htype⟩ := exists_reads_literal hd hobject hmap h
  refine ⟨e, hreads.readLiteral, htype, fun hframework => htype.trans ⟨?_, ?_⟩⟩
  · intro hcovers n hn
    exact takesNumber_of_covers hcovers hn
  · intro htakes
    exact covers_of_fits hd hframework hfits htakes hmap h

/-- A list of numbers. -/
def sizes : TypeDescriptor := .array (.primitive .number none) none none false

theorem literal_typed_sizes : ∃ e : Literal, kotlin.readLiteral "listOf(4.0, 8.0)" = some e ∧
    e.HasType kotlin "List<Double>" := by
  have hwrites : ∀ inner, sizes.Writes inner → inner.enumerated? = none ∧ inner.complexType? = none := by
    rintro inner (_ | _ | hinner)
    · exact ⟨rfl, rfl⟩
    · cases hinner
      exact ⟨rfl, rfl⟩
  have hmap : (kotlin.language.map sizes "Sizes").result = .ok "List<Double>" := rfl
  have hliteral : kotlin.language.literal? sizes (.array [.ofNat 4, .ofNat 8]) "Sizes" =
      some "listOf(4.0, 8.0)" := rfl
  have htakes : ∀ n, (Json.Value.array [.ofNat 4, .ofNat 8]).HasNumber n → kotlin.TakesNumber n := by
    rintro n (_ | ⟨hv, hn⟩) i rfl
    rcases List.mem_pair.1 hv with rfl | rfl <;> cases hn <;> decide
  obtain ⟨e, hread, -, htype⟩ := literal_typed (fun inner hi => (hwrites inner hi).1) rfl hmap hliteral
  exact ⟨e, hread, (htype fun inner hi => (hwrites inner hi).2).2 htakes⟩

/-- A number in Kotlin that is written without a point, and a text in Swift for content, which it fits:
no text is a view. -/
theorem literal_typed_largeCount_iconText :
    (TypeDescriptor.fits (.primitive .number none) (.ofNat 18446744073709551615) = true ∧
      kotlin.language.map (.primitive .number none) "CardCount" = pure "Double" ∧
      kotlin.language.literal? (.primitive .number none) (.ofNat 18446744073709551615) "CardCount" =
        some "18446744073709551615" ∧
      kotlin.readLiteral "18446744073709551615" = some (.number "18446744073709551615") ∧
      ¬ (Literal.number "18446744073709551615").HasType kotlin "Double") ∧
    (TypeDescriptor.fits (.complex .node) (.string "Icon") = true ∧
      swift.language.map (.complex .node) "CardIcon" = pure "AnyView" ∧
      swift.language.literal? (.complex .node) (.string "Icon") "CardIcon" = some "\"Icon\"" ∧
      swift.readLiteral "\"Icon\"" = some (.text "Icon") ∧
      ¬ (Literal.text "Icon").HasType swift "AnyView") := by
  have hcount : kotlin.language.number (.integer 18446744073709551615) = "18446744073709551615" := rfl
  refine ⟨⟨rfl, rfl, rfl, ?_, ?_⟩, rfl, rfl, rfl, (reads_quoted swift "Icon").readLiteral, ?_⟩
  · rw [← hcount]
    exact (reads_number kotlin _).readLiteral
  · rw [← hcount, hasType_number_iff]
    rintro ⟨-, htakes⟩
    exact absurd (htakes _ rfl) (by decide)
  · rw [Literal.hasType_text_iff]
    decide

end Reading.Dialect

end DesignSystem
