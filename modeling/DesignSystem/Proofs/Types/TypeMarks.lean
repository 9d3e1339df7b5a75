import DesignSystem.Proofs.Component.Names

/-!
# Commas and arrows in TypeScript types

The parameters of a callback stand in its type between commas, and an arrow follows them. What they
hold may have the same marks in it.

* `framed_type`: with what types start and end.
* `Brings`: a descriptor brings a mark into a type by itself.
* `contains_type_iff`: a mark stands in a type just if a descriptor at a mapped position brings it.
-/

set_option autoImplicit false

namespace DesignSystem

namespace TypeDescriptor

/-- The parameters of a callback; without a signature it has none. -/
def params : TypeDescriptor → List (String × TypeDescriptor)
  | signed .function params _ => params
  | _ => []

theorem paramNames_eq (d : TypeDescriptor) : d.paramNames = d.params.map (·.1) := by
  fun_cases params d with
  | case1 => rfl
  | case2 d hne =>
    unfold paramNames
    split
    · exact absurd rfl (hne _ _)
    · rfl

theorem isCallback_of_params {d : TypeDescriptor} (h : d.params ≠ []) : d.isCallback := by
  unfold params at h
  split at h
  · rfl
  · exact absurd rfl h

end TypeDescriptor

namespace TypeScript

variable {f : Framework} {mark text : String} {d inner : TypeDescriptor}

/-! ## The ends of types -/

/-- A text starts with a character that is neither blank nor a closing parenthesis, nor the first
one of `unknown` and `undefined`. -/
def Opens (text : String) : Prop :=
  ∃ c ∈ text.toList.head?, Text.isBlankChar c = false ∧ c ∉ [')', 'u']

/-- A text ends with a character that is neither blank nor a comma. -/
def Closes (text : String) : Prop :=
  ∃ c ∈ text.toList.getLast?, Text.isBlankChar c = false ∧ c ≠ ','

instance (text : String) : Decidable (Opens text) :=
  decidable_of_iff (text.toList.head?.any fun c => !Text.isBlankChar c && c != ')' && c != 'u')
    (by simp [Opens, Option.any_eq_true, and_assoc])

instance (text : String) : Decidable (Closes text) :=
  decidable_of_iff (text.toList.getLast?.any fun c => !Text.isBlankChar c && c != ',')
    (by simp [Closes, Option.any_eq_true])

theorem Opens.append (h : Opens text) (rest : String) : Opens (text ++ rest) := by
  obtain ⟨c, hc, hopens⟩ := h
  exact ⟨c, by rw [String.toList_append]; exact List.mem_head?_append_of_mem_head? hc, hopens⟩

theorem Closes.append (h : Closes text) (front : String) : Closes (front ++ text) := by
  obtain ⟨c, hc, hcloses⟩ := h
  exact ⟨c, by rw [String.toList_append]; exact List.mem_getLast?_append_of_mem_getLast? hc, hcloses⟩

/-- Both ends of a text are those of a type. -/
structure Framed (text : String) : Prop where
  opens : Opens text
  closes : Closes text

instance (text : String) : Decidable (Framed text) :=
  decidable_of_iff (Opens text ∧ Closes text) ⟨fun h => ⟨h.1, h.2⟩, fun h => ⟨h.1, h.2⟩⟩

theorem Framed.between {front back : String} (hfront : Opens front) (hback : Closes back)
    (text : String) : Framed (front ++ text ++ back) :=
  ⟨(hfront.append text).append back, hback.append (front ++ text)⟩

theorem Opens.join {item : String} (h : Opens item) (sep : String) (items : List String) :
    Opens (Text.join sep (item :: items)) := by
  cases items with
  | nil => simpa [Text.join] using h
  | cons next items =>
    rw [Text.join_cons_cons]
    exact (h.append sep).append _

theorem closes_join {items : List String} (sep : String) (hne : items ≠ [])
    (h : ∀ item ∈ items, Closes item) : Closes (Text.join sep items) := by
  induction items with
  | nil => exact absurd rfl hne
  | cons item items ih =>
    cases items with
    | nil => simpa [Text.join] using h item List.mem_cons_self
    | cons next items =>
      rw [Text.join_cons_cons]
      exact (ih (List.cons_ne_nil _ _) fun item hitem => h item (.tail _ hitem)).append _

theorem framed_join {items : List String} (sep : String) (hne : items ≠ [])
    (h : ∀ item ∈ items, Framed item) : Framed (Text.join sep items) := by
  obtain ⟨first, rest, rfl⟩ := List.exists_cons_of_ne_nil hne
  exact ⟨(h first List.mem_cons_self).opens.join sep rest,
    closes_join sep hne fun item hitem => (h item hitem).closes⟩

theorem framed_number (n : Json.Number) : Framed n.text := by
  have hchar : ∀ c, Json.isNumberChar c → Text.isBlankChar c = false ∧ c ∉ [')', 'u', ','] := by
    intro c hc
    rcases Bool.or_eq_true_iff.1 hc with hdigit | hmark
    · have hplain : Text.isPlainAlphanumeric c := Bool.or_eq_true_iff.2 (.inr hdigit)
      exact Text.of_ascii (P := fun c => c.isDigit → Text.isBlankChar c = false ∧
        c ∉ [')', 'u', ',']) (by decide +kernel) (Text.isPrintable_of_plain hplain).lt hdigit
    · have hall : ['-', '+', '.', 'e'].all fun c =>
          !Text.isBlankChar c && c != ')' && c != 'u' && c != ',' := by decide
      simpa [and_assoc] using List.all_eq_true.1 hall c (List.contains_iff_mem.1 hmark)
  have hne := Json.Number.text_ne_nil n
  constructor
  · refine ⟨_, List.head?_eq_some_head hne, ?_⟩
    have hfirst := hchar _ (Json.Number.isNumberChar_of_mem (List.head_mem hne))
    exact hfirst.imp_right fun h hmem => h (List.mem_append_left [','] hmem)
  · refine ⟨_, List.getLast?_eq_some_getLast hne, ?_⟩
    have hlast := hchar _ (Json.Number.isNumberChar_of_mem (List.getLast_mem hne))
    exact hlast.imp_right fun h heq => h (by simp [heq])

theorem framed_literal {v : Json.Value} (h : literal? v = some text) : Framed text := by
  cases v with
  | null => cases h
  | bool b =>
    cases h
    cases b <;> decide
  | number n =>
    cases h
    exact framed_number n
  | string s =>
    cases h
    exact .between (by decide) (by decide) _
  | array items =>
    obtain ⟨parts, -, rfl⟩ := Option.map_eq_some_iff.1 h
    exact .between (by decide) (by decide) _
  | object fields =>
    obtain ⟨parts, -, rfl⟩ := Option.map_eq_some_iff.1 h
    exact .between (by decide) (by decide) _

theorem framed_complex (f : Framework) (kind : ComplexType) : Framed (f.complex kind) := by
  cases f <;> cases kind <;> decide

theorem framed_group (h : Framed text) : Framed (group text) := by
  unfold group
  split
  · exact .between (by decide) (by decide) text
  · exact h

theorem framed_union {members : List String} (hne : members ≠ [])
    (h : ∀ member ∈ members, Framed member) : Framed (union members) := by
  unfold union
  cases hcommon : commonMember? members with
  | none => exact framed_join " | " hne h
  | some single => exact h single (mem_of_commonMember? hcommon)

theorem framed_object (fields : List String) (strict : Bool) : Framed (object fields strict) := by
  unfold object
  generalize fields ++ _ = parts
  dsimp only
  split
  · decide
  · exact .between (by decide) (by decide) _

/-! ## What types are made of -/

/-- What is written where a descriptor enumerates values. -/
theorem type_of_enumerationValues {values : List Json.Value}
    (h : enumerationValues target d = .ok (some values)) : type f d = literalUnion d values := by
  cases d with
  | primitive kind enumeration =>
    cases enumeration with
    | none => cases h
    | some listed =>
      cases listed with
      | nil => cases h
      | cons first rest =>
        cases h
        rfl
  | custom =>
    rw [type, h]
  | complex | signed | union | array | object => cases h

theorem literals_of_literalUnion {values : List Json.Value} (h : literalUnion d values = .ok text) :
    ∃ literals, values.mapM literal? = some literals ∧ text = Text.join " | " literals := by
  unfold literalUnion at h
  split at h
  · next literals hliterals =>
    cases h
    exact ⟨literals, hliterals, rfl⟩
  · cases h

theorem enumerationValues_ne_nil {values : List Json.Value}
    (h : enumerationValues target d = .ok (some values)) : values ≠ [] := by
  cases d with
  | primitive kind enumeration =>
    cases enumeration with
    | none => cases h
    | some listed =>
      cases listed with
      | nil => cases h
      | cons first rest =>
        cases h
        exact List.cons_ne_nil first rest
  | custom kind texts =>
    rw [enumerationValues] at h
    split at h
    · cases h
    · next hne _ =>
      cases h
      simpa using hne
    · split at h <;> cases h
  | complex | signed | union | array | object => cases h

theorem primitive_inversion {kind : PrimitiveType} {values : Option (List Json.Value)}
    (h : type f (.primitive kind values) = .ok text) :
    (∃ listed, enumerationValues target (.primitive kind values) = .ok (some listed)) ∨
      text = kind.name := by
  rw [type] at h
  split at h
  · cases h
  · next listed hlisted => exact .inl ⟨listed, hlisted⟩
  · cases h
    exact .inr rfl

theorem custom_inversion {kind : CustomType} {values : Option (List String)}
    (h : type f (.custom kind values) = .ok text) :
    (∃ listed, enumerationValues target (.custom kind values) = .ok (some listed)) ∨
      text = "string" := by
  rw [type] at h
  split at h
  · cases h
  · next listed hlisted => exact .inl ⟨listed, hlisted⟩
  · cases h
    exact .inr rfl

theorem framed_of_enumerationValues {values : List Json.Value}
    (hvalues : enumerationValues target d = .ok (some values)) (h : type f d = .ok text) :
    Framed text := by
  rw [type_of_enumerationValues hvalues] at h
  obtain ⟨literals, hliterals, rfl⟩ := literals_of_literalUnion h
  have hlength := (forall₂_of_mapM_eq_some hliterals).length_eq
  refine framed_join " | " ?_ fun literal hliteral => ?_
  · rintro rfl
    exact enumerationValues_ne_nil hvalues (List.length_eq_zero_iff.1 hlength)
  · obtain ⟨v, -, hv⟩ := mem_of_mapM_eq_some hliterals hliteral
    exact framed_literal hv

/-- Types start and end with visible characters. -/
theorem framed_type (h : type f d = .ok text) : Framed text := by
  induction d using TypeDescriptor.induct generalizing text with
  | primitive kind values =>
    rcases primitive_inversion h with ⟨listed, hlisted⟩ | rfl
    · exact framed_of_enumerationValues hlisted h
    · cases kind <;> decide
  | custom kind values =>
    rcases custom_inversion h with ⟨listed, hlisted⟩ | rfl
    · exact framed_of_enumerationValues hlisted h
    · decide
  | complex kind =>
    cases h
    exact framed_complex f kind
  | signed kind params returns _ hreturns =>
    cases kind with
    | function =>
      rw [type] at h
      obtain ⟨parts, -, h⟩ := bind_eq_ok h
      obtain ⟨last, hlast, h⟩ := bind_eq_ok h
      cases h
      have hcloses : Closes last := by
        cases returns with
        | none =>
          cases hlast
          decide
        | some d => exact (hreturns d rfl hlast).closes
      have hopens : Opens "(" := by decide
      exact ⟨((hopens.append _).append _).append _, hcloses.append _⟩
    | node | element | ref | date | file =>
      cases h
      exact framed_complex f _
  | union types ih =>
    rw [type] at h
    split_ifs at h with hempty
    obtain ⟨members, hmembers, h⟩ := bind_eq_ok h
    cases h
    have hall := forall₂_of_all hmembers
    refine framed_union ?_ (List.forall_mem_map.2 fun member hmember => ?_)
    · intro hnil
      obtain rfl := List.map_eq_nil_iff.1 hnil
      exact hempty (List.isEmpty_iff.2 (List.length_eq_zero_iff.1 hall.length_eq))
    · obtain ⟨d, hd, htype⟩ := exists_of_forall₂ hall hmember
      exact framed_group (ih d hd htype)
  | array items low high unique ih =>
    rw [type] at h
    obtain ⟨item, hitem, h⟩ := bind_eq_ok h
    cases h
    have hcloses : Closes "[]" := by decide
    exact ⟨(framed_group (ih hitem)).opens.append _, hcloses.append _⟩
  | object properties strict =>
    rw [type] at h
    obtain ⟨fields, -, h⟩ := bind_eq_ok h
    cases h
    exact framed_object fields strict

/-- A callback is written as its parameters, an arrow and its result. -/
theorem callback_inversion (hcallback : d.isCallback) (h : type f d = .ok text) : ∃ parts rest,
    List.Forall₂ (WrittenAs f) d.params parts ∧
      text = "(" ++ (Text.join ", " parts ++ (") =>" ++ rest)) := by
  have hkind := of_decide_eq_true hcallback
  cases d with
  | complex kind =>
    cases h
    obtain rfl := Option.some.inj hkind
    exact ⟨[], " void", .nil, by cases f <;> rfl⟩
  | signed kind params returns =>
    obtain rfl := Option.some.inj hkind
    rw [type] at h
    obtain ⟨parts, hparts, h⟩ := bind_eq_ok h
    obtain ⟨last, -, h⟩ := bind_eq_ok h
    cases h
    have harrow : ") => " = ") =>" ++ " " := rfl
    exact ⟨parts, " " ++ last, forall₂_of_named hparts, by simp only [harrow, String.append_assoc]⟩
  | primitive | custom | union | array | object => cases hkind

/-! ## Marks and punctuation -/

/-- What stands between the parameters of a callback, and behind them. -/
def marks : List String := [", ", ") =>"]

theorem mark_ne_empty (hmark : mark ∈ marks) : mark ≠ "" := by
  have hall : ∀ mark ∈ marks, mark ≠ "" := by decide
  exact hall mark hmark

-- No mark runs across the punctuation of types, but for that of callbacks: `infix_group_iff` and the
-- lemmas before it say so for each place where texts are put together.
theorem notMem_mark (hmark : mark ∈ marks) {c : Char}
    (hc : c ∈ ['(', '{', '}', '[', ':', ';', '|']) : c ∉ mark.toList := by
  have hall : ∀ mark ∈ marks, ['(', '{', '}', '[', ':', ';', '|'].all fun c =>
      !mark.toList.contains c := by decide
  simpa using List.all_eq_true.1 (hall mark hmark) c hc

theorem infix_after_blank (hmark : mark ∈ marks) {cs : List Char} :
    mark.toList <:+: ' ' :: cs ↔ mark.toList <:+: cs := by
  have hall : ∀ mark ∈ marks, mark.toList.head? ≠ some ' ' := by decide
  exact Text.infix_cons_iff_of_head?_ne (hall mark hmark)

theorem infix_before_blank (hmark : mark ∈ marks) (h : Closes text) :
    mark.toList <:+: text.toList ++ [' '] ↔ mark.toList <:+: text.toList := by
  rcases List.mem_cons.1 hmark with rfl | hmark
  · -- the text would end with the comma
    refine List.infix_concat_iff.trans (or_iff_right_of_imp fun hend => ?_)
    obtain ⟨c, hc, -, hne⟩ := h
    rcases List.suffix_concat_iff.1 hend with hnil | ⟨front, hfront, hsuffix⟩
    · cases hnil
    · obtain rfl : front = [','] := List.append_cancel_right (hfront.symm : _ = [','] ++ [' '])
      obtain ⟨before, hbefore⟩ := hsuffix
      rw [← hbefore, List.getLast?_concat] at hc
      exact absurd (Option.some.inj hc).symm hne
  · obtain rfl := List.mem_singleton.1 hmark
    exact Text.infix_concat_iff_of_getLast?_ne (by decide)

theorem infix_field_iff (hmark : mark ∈ marks) (name part : String) :
    mark.toList <:+: (name ++ ": " ++ part).toList ↔
      mark.toList <:+: name.toList ∨ mark.toList <:+: part.toList := by
  have hchars : (name ++ ": " ++ part).toList = name.toList ++ ':' :: ' ' :: part.toList := by simp
  rw [hchars, Text.infix_append_cons_iff (notMem_mark hmark (by decide)), infix_after_blank hmark]

theorem infix_bar_iff (hmark : mark ∈ marks) (h : Closes text) (rest : String) :
    mark.toList <:+: (text ++ " | " ++ rest).toList ↔
      mark.toList <:+: text.toList ∨ mark.toList <:+: rest.toList := by
  have hchars : (text ++ " | " ++ rest).toList =
      (text.toList ++ [' ']) ++ '|' :: ' ' :: rest.toList := by simp
  rw [hchars, Text.infix_append_cons_iff (notMem_mark hmark (by decide)),
    infix_before_blank hmark h, infix_after_blank hmark]

theorem infix_semicolon_iff (hmark : mark ∈ marks) (text rest : String) :
    mark.toList <:+: (text ++ "; " ++ rest).toList ↔
      mark.toList <:+: text.toList ∨ mark.toList <:+: rest.toList := by
  have hchars : (text ++ "; " ++ rest).toList = text.toList ++ ';' :: ' ' :: rest.toList := by simp
  rw [hchars, Text.infix_append_cons_iff (notMem_mark hmark (by decide)), infix_after_blank hmark]

theorem infix_group_iff (hmark : mark ∈ marks) (text : String) :
    mark.toList <:+: (group text).toList ↔ mark.toList <:+: text.toList := by
  have hall : ∀ mark ∈ marks, mark.toList.head? ≠ some '(' ∧ mark.toList.getLast? ≠ some ')' := by
    decide
  obtain ⟨hfirst, hlast⟩ := hall mark hmark
  unfold group
  split
  · have hchars : ("(" ++ text ++ ")").toList = '(' :: (text.toList ++ [')']) := by simp
    rw [hchars, Text.infix_cons_iff_of_head?_ne hfirst,
      Text.infix_concat_iff_of_getLast?_ne hlast]
  · rfl

/-! ## Marks in types -/

/-- A descriptor brings a mark into its type by itself. -/
inductive Brings (mark : String) : TypeDescriptor → Prop
  /-- The mark stands in the literal of a value that the descriptor enumerates. -/
  | value {d : TypeDescriptor} {values : List Json.Value} {v : Json.Value} {literal : String}
      (hvalues : enumerationValues target d = .ok (some values)) (hv : v ∈ values)
      (hliteral : literal? v = some literal) (h : mark.toList <:+: literal.toList) : Brings mark d
  /-- The mark stands in the name of a field or of a parameter. -/
  | name {d : TypeDescriptor} {name : String} (hname : name ∈ d.fieldNames ++ d.paramNames)
      (h : mark.toList <:+: name.toList) : Brings mark d
  /-- The arrow of a callback. -/
  | arrow {d : TypeDescriptor} (hmark : mark = ") =>") (h : d.isCallback) : Brings mark d
  /-- The comma between two parameters. -/
  | comma {d : TypeDescriptor} (hmark : mark = ", ") (h : 2 ≤ d.params.length) : Brings mark d
  /-- The comma in `Record<string, never>`, the type of an object that takes no field at all. -/
  | empty (hmark : mark = ", ") : Brings mark (.object [] true)

/-- A descriptor that brings a mark stands at a mapped position. -/
def Carries (mark : String) (d : TypeDescriptor) : Prop :=
  ∃ inner, TypeDescriptor.Position true d inner ∧ Brings mark inner

theorem carries_of_enumerationValues (hmark : mark ∈ marks) {values : List Json.Value}
    (hvalues : enumerationValues target d = .ok (some values)) (h : type f d = .ok text)
    (hin : mark.toList <:+: text.toList) : Carries mark d := by
  rw [type_of_enumerationValues hvalues] at h
  obtain ⟨literals, hliterals, rfl⟩ := literals_of_literalUnion h
  have hliteral : ∀ literal ∈ literals, ∃ v ∈ values, literal? v = some literal :=
    fun _ => mem_of_mapM_eq_some hliterals
  rw [Text.infix_join_iff (mark_ne_empty hmark)] at hin
  · obtain ⟨literal, hmem, hin⟩ := hin
    obtain ⟨v, hv, hfound⟩ := hliteral literal hmem
    exact ⟨d, .self d, .value hvalues hv hfound hin⟩
  · intro literal hmem
    obtain ⟨v, -, hfound⟩ := hliteral literal hmem
    exact infix_bar_iff hmark (framed_literal hfound).closes

theorem infix_complex (hmark : mark ∈ marks) {kind : ComplexType}
    (h : mark.toList <:+: (f.complex kind).toList) : mark = ") =>" ∧ kind = .function := by
  revert mark
  cases f <;> cases kind <;> decide

theorem exists_infix_of_union (hmark : mark ∈ marks) {members : List String}
    (hcloses : ∀ member ∈ members, Closes member)
    (h : mark.toList <:+: (union members).toList) : ∃ member ∈ members,
      mark.toList <:+: member.toList := by
  unfold union at h
  cases hcommon : commonMember? members with
  | none =>
    rw [hcommon] at h
    refine (Text.infix_join_iff (mark_ne_empty hmark) fun member hmember => ?_).1 h
    exact infix_bar_iff hmark (hcloses member hmember)
  | some single =>
    rw [hcommon] at h
    exact ⟨single, mem_of_commonMember? hcommon, h⟩

theorem exists_infix_of_object (hmark : mark ∈ marks) {fields : List String} {strict : Bool}
    (hcloses : ∀ field ∈ fields, Closes field)
    (h : mark.toList <:+: (object fields strict).toList) :
    (mark = ", " ∧ fields = [] ∧ strict = true) ∨
      ∃ field ∈ fields, mark.toList <:+: field.toList := by
  let rest := if strict then [] else ["[key: string]: unknown"]
  have hrest : ∀ field ∈ rest, Closes field ∧ ∀ mark ∈ marks, ¬ mark.toList <:+: field.toList := by
    cases strict <;> decide
  by_cases hnil : fields ++ rest = []
  · have hempty : object fields strict = "Record<string, never>" :=
      if_pos (List.isEmpty_iff.2 hnil)
    have hcomma : ∀ mark ∈ marks, mark.toList <:+: "Record<string, never>".toList → mark = ", " := by
      decide
    obtain ⟨hfields, hstrict⟩ := List.append_eq_nil_iff.1 hnil
    rw [hempty] at h
    exact .inl ⟨hcomma mark hmark h, hfields, by simpa [rest] using hstrict⟩
  · have hparts : object fields strict = "\x7b " ++ Text.join "; " (fields ++ rest) ++ " \x7d" :=
      if_neg fun hempty => hnil (List.isEmpty_iff.1 hempty)
    have hjoin := closes_join "; " hnil
      (List.forall_mem_append.2 ⟨hcloses, fun field hfield => (hrest field hfield).1⟩)
    generalize hbody : Text.join "; " (fields ++ rest) = body at hparts hjoin
    have hchars : ("\x7b " ++ body ++ " \x7d").toList =
        ([] ++ '\x7b' :: ' ' :: (body.toList ++ [' '])) ++ ['\x7d'] := by simp
    have hmarkNil : ¬ mark.toList <:+: [] := fun hnil =>
      mark_ne_empty hmark (String.toList_eq_nil_iff.1 (List.infix_nil.1 hnil))
    rw [hparts, hchars, Text.infix_append_cons_iff (notMem_mark hmark (by decide)),
      Text.infix_append_cons_iff (notMem_mark hmark (by decide)), infix_after_blank hmark,
      infix_before_blank hmark hjoin, or_iff_left hmarkNil, or_iff_right hmarkNil, ← hbody,
      Text.infix_join_iff (mark_ne_empty hmark) fun field _ => infix_semicolon_iff hmark field] at h
    obtain ⟨field, hfield, hin⟩ := h
    rcases List.mem_append.1 hfield with hfield | hfield
    · exact .inr ⟨field, hfield, hin⟩
    · exact absurd hin ((hrest field hfield).2 mark hmark)

theorem infix_comma_callback_iff (body last : String) :
    ", ".toList <:+: ("(" ++ body ++ ") => " ++ last).toList ↔
      ", ".toList <:+: body.toList ∨ ", ".toList <:+: last.toList := by
  have hchars : ("(" ++ body ++ ") => " ++ last).toList =
      '(' :: (body.toList ++ ')' :: ' ' :: '=' :: '>' :: ' ' :: last.toList) := by simp
  rw [hchars, Text.infix_cons_iff_of_head?_ne (by decide), Text.infix_append_cons_iff (by decide)]
  iterate 4 rw [Text.infix_cons_iff_of_head?_ne (by decide)]

theorem carries_comma {params : List (String × TypeDescriptor)} {returns : Option TypeDescriptor}
    (hparams : ∀ p ∈ params, ∀ {text : String}, type f p.2 = .ok text →
      ", ".toList <:+: text.toList → Carries ", " p.2)
    (hreturns : ∀ d, returns = some d → ∀ {text : String}, type f d = .ok text →
      ", ".toList <:+: text.toList → Carries ", " d)
    (h : type f (.signed .function params returns) = .ok text)
    (hin : ", ".toList <:+: text.toList) : Carries ", " (.signed .function params returns) := by
  rw [type] at h
  obtain ⟨parts, hparts, h⟩ := bind_eq_ok h
  obtain ⟨last, hlast, h⟩ := bind_eq_ok h
  cases h
  rcases (infix_comma_callback_iff _ last).1 hin with hin | hin
  · -- the commas between parameters are the callback's own
    cases forall₂_of_named hparts with
    | nil => exact absurd hin (by decide)
    | @cons p field params fields hfield hfields =>
      cases hfields with
      | nil =>
        obtain ⟨part, hpart, rfl⟩ := hfield
        have hone : Text.join ", " [p.1 ++ ": " ++ part] = p.1 ++ ": " ++ part := by simp [Text.join]
        rw [hone, infix_field_iff List.mem_cons_self] at hin
        rcases hin with hname | hin
        · exact ⟨_, .self _, .name (List.mem_append_right _ List.mem_cons_self) hname⟩
        · obtain ⟨inner, hp, hbrings⟩ := hparams p List.mem_cons_self hpart hin
          exact ⟨inner, .param List.mem_cons_self hp, hbrings⟩
      | cons _ _ => exact ⟨_, .self _, .comma rfl (by simp [TypeDescriptor.params])⟩
  · cases returns with
    | none =>
      cases hlast
      exact absurd hin (by decide)
    | some d =>
      obtain ⟨inner, hp, hbrings⟩ := hreturns d rfl hlast hin
      exact ⟨inner, .result hp, hbrings⟩

theorem carries_union (hmark : mark ∈ marks) {types : List TypeDescriptor}
    (hmembers : ∀ d ∈ types, ∀ {text : String}, type f d = .ok text →
      mark.toList <:+: text.toList → Carries mark d)
    (h : type f (.union types) = .ok text) (hin : mark.toList <:+: text.toList) :
    Carries mark (.union types) := by
  rw [type] at h
  split_ifs at h
  obtain ⟨members, hall, h⟩ := bind_eq_ok h
  cases h
  replace hall := forall₂_of_all hall
  have hcloses : ∀ member ∈ members.map group, Closes member := by
    refine List.forall_mem_map.2 fun member hmember => ?_
    obtain ⟨d, -, htype⟩ := exists_of_forall₂ hall hmember
    exact (framed_group (framed_type htype)).closes
  obtain ⟨_, hgroup, hin⟩ := exists_infix_of_union hmark hcloses hin
  obtain ⟨member, hmember, rfl⟩ := List.mem_map.1 hgroup
  obtain ⟨d, hd, htype⟩ := exists_of_forall₂ hall hmember
  obtain ⟨inner, hp, hbrings⟩ := hmembers d hd htype ((infix_group_iff hmark member).1 hin)
  exact ⟨inner, .member hd hp, hbrings⟩

theorem carries_array (hmark : mark ∈ marks) {items : TypeDescriptor} {low high : Option Nat}
    {unique : Bool}
    (hitems : ∀ {text : String}, type f items = .ok text →
      mark.toList <:+: text.toList → Carries mark items)
    (h : type f (.array items low high unique) = .ok text)
    (hin : mark.toList <:+: text.toList) : Carries mark (.array items low high unique) := by
  rw [type] at h
  obtain ⟨item, hitem, h⟩ := bind_eq_ok h
  cases h
  have hchars : (group item ++ "[]").toList = (group item).toList ++ '[' :: [']'] := by simp
  have hend : ∀ mark ∈ marks, ¬ mark.toList <:+: [']'] := by decide
  rw [hchars, Text.infix_append_cons_iff (notMem_mark hmark (by decide)),
    or_iff_left (hend mark hmark), infix_group_iff hmark] at hin
  obtain ⟨inner, hp, hbrings⟩ := hitems hitem hin
  exact ⟨inner, .item hp, hbrings⟩

theorem carries_object (hmark : mark ∈ marks) {properties : List (String × TypeDescriptor)}
    {strict : Bool}
    (hproperties : ∀ p ∈ properties, ∀ {text : String}, type f p.2 = .ok text →
      mark.toList <:+: text.toList → Carries mark p.2)
    (h : type f (.object properties strict) = .ok text) (hin : mark.toList <:+: text.toList) :
    Carries mark (.object properties strict) := by
  rw [type] at h
  obtain ⟨fields, hall, h⟩ := bind_eq_ok h
  cases h
  replace hall := forall₂_of_named hall
  have hcloses : ∀ field ∈ fields, Closes field := by
    intro field hfield
    obtain ⟨p, -, part, hpart, rfl⟩ := exists_of_forall₂ hall hfield
    exact (framed_type hpart).closes.append _
  rcases exists_infix_of_object hmark hcloses hin with ⟨hcomma, rfl, rfl⟩ | ⟨field, hfield, hin⟩
  · obtain rfl := List.length_eq_zero_iff.1 hall.length_eq
    exact ⟨_, .self _, .empty hcomma⟩
  · obtain ⟨p, hp, part, hpart, rfl⟩ := exists_of_forall₂ hall hfield
    rcases (infix_field_iff hmark p.1 part).1 hin with hname | hin
    · exact ⟨_, .self _, .name (List.mem_append_left _ (List.mem_map_of_mem hp)) hname⟩
    · obtain ⟨inner, hposition, hbrings⟩ := hproperties p hp hpart hin
      exact ⟨inner, .field (.inr rfl) hp hposition, hbrings⟩

/-- The marks in a type are brought by the descriptors at its mapped positions. -/
theorem carries_of_isInfix (hmark : mark ∈ marks) (h : type f d = .ok text)
    (hin : mark.toList <:+: text.toList) : Carries mark d := by
  induction d using TypeDescriptor.induct generalizing text with
  | primitive kind values =>
    rcases primitive_inversion h with ⟨listed, hlisted⟩ | rfl
    · exact carries_of_enumerationValues hmark hlisted h hin
    · exfalso
      revert mark
      cases kind <;> decide
  | custom kind values =>
    rcases custom_inversion h with ⟨listed, hlisted⟩ | rfl
    · exact carries_of_enumerationValues hmark hlisted h hin
    · exfalso
      revert mark
      decide
  | complex kind =>
    cases h
    obtain ⟨rfl, rfl⟩ := infix_complex hmark hin
    exact ⟨_, .self _, .arrow rfl rfl⟩
  | signed kind params returns hparams hreturns =>
    cases kind with
    | function =>
      rcases List.mem_cons.1 hmark with rfl | harrow
      · exact carries_comma hparams hreturns h hin
      · exact ⟨_, .self _, .arrow (List.mem_singleton.1 harrow) rfl⟩
    | node | element | ref | date | file =>
      cases h
      cases (infix_complex hmark hin).2
  | union types ih => exact carries_union hmark ih h hin
  | array items low high unique ih => exact carries_array hmark ih h hin
  | object properties strict ih => exact carries_object hmark ih h hin

theorem infix_of_brings (hbrings : Brings mark d) (h : type f d = .ok text) :
    mark.toList <:+: text.toList := by
  cases hbrings with
  | @value _ values v literal hvalues hv hliteral hin =>
    rw [type_of_enumerationValues hvalues] at h
    obtain ⟨literals, hliterals, rfl⟩ := literals_of_literalUnion h
    obtain ⟨found, hmem, hfound⟩ :=
      exists_of_forall₂ (forall₂_of_mapM_eq_some hliterals).flip hv
    obtain rfl := Option.some.inj (hliteral.symm.trans hfound)
    exact hin.trans (Text.infix_join hmem)
  | @name _ name hname hin =>
    exact (hin.trans (Text.infix_append_left name ": ")).trans (name_written (.self d) hname h)
  | arrow hmark hcallback =>
    obtain ⟨parts, rest, -, rfl⟩ := callback_inversion hcallback h
    rw [hmark]
    exact (Text.infix_append_left _ rest).trans
      ((Text.infix_append_right _ _).trans (Text.infix_append_right "(" _))
  | comma hmark hmany =>
    have hcallback : d.isCallback := by
      apply TypeDescriptor.isCallback_of_params
      rw [← List.length_pos_iff]
      omega
    obtain ⟨parts, rest, hparts, rfl⟩ := callback_inversion hcallback h
    rw [hparts.length_eq] at hmany
    match parts, hmany with
    | first :: second :: more, _ =>
      rw [Text.join_cons_cons, hmark]
      have hcomma := (Text.infix_append_right first ", ").trans
        (Text.infix_append_left _ (Text.join ", " (second :: more)))
      exact hcomma.trans ((Text.infix_append_left _ _).trans (Text.infix_append_right "(" _))
  | empty hmark =>
    subst hmark
    cases h
    decide

/-- A mark stands in a type just if a descriptor at a mapped position brings it. -/
theorem contains_type_iff (hmark : mark ∈ marks) (h : type f d = .ok text) :
    Text.contains mark text ↔ Carries mark d := by
  rw [Text.contains_iff]
  refine ⟨carries_of_isInfix hmark h, ?_⟩
  rintro ⟨inner, hposition, hbrings⟩
  obtain ⟨part, hpart, hwithin⟩ := type_written hposition h
  exact (infix_of_brings hbrings hpart).trans hwithin

end TypeScript

end DesignSystem
