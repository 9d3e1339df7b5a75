import DesignSystem.Proofs.Reading.Names
import DesignSystem.Proofs.Types.LiteralReading

/-!
# Declared enumerations as they are read

Each language declares an enumeration with one line for each case, between what names the type of
raw values and what ends the declaration.

* `Dialect.readEnumeration`: the type of raw values, and the names and raw values of all cases.
* `Dialect.readReference`: the case that a text refers to.
* `readEnumeration_enumeration`: what is declared for values is read as one case for each of them.
-/

set_option autoImplicit false

namespace DesignSystem

/-! ## Pieces of text -/

namespace Text

/-- Items with a mark behind each but the last. -/
def marked (mark : String) : List String → List String
  | [] => []
  | [item] => [item]
  | item :: next :: items => (item ++ mark) :: marked mark (next :: items)

theorem marked_ne_nil (mark : String) {items : List String} (h : items ≠ []) :
    marked mark items ≠ [] := by
  match items with
  | [] => exact absurd rfl h
  | [item] => exact List.cons_ne_nil _ _
  | item :: next :: items => exact List.cons_ne_nil _ _

theorem join_marked (mark sep : String) : ∀ items,
    join sep (marked mark items) = join (mark ++ sep) items
  | [] => rfl
  | [item] => rfl
  | item :: next :: items => by
    obtain ⟨first, rest, hrest⟩ := List.exists_cons_of_ne_nil
      (marked_ne_nil mark (List.cons_ne_nil next items))
    rw [marked, hrest, join_cons_cons, ← hrest, join_marked mark sep (next :: items),
      join_cons_cons]
    simp only [String.append_assoc]

theorem exists_of_mem_marked {mark line : String} : ∀ {items : List String},
    line ∈ marked mark items → ∃ item ∈ items, line = item ∨ line = item ++ mark
  | [], h => by cases h
  | [item], h => ⟨item, List.mem_cons_self, .inl (List.mem_singleton.1 h)⟩
  | item :: next :: items, h => by
    rw [marked] at h
    rcases List.mem_cons.1 h with rfl | h
    · exact ⟨item, List.mem_cons_self, .inr rfl⟩
    · obtain ⟨found, hfound, hline⟩ := exists_of_mem_marked h
      exact ⟨found, .tail _ hfound, hline⟩

theorem join_append_singleton (sep last : String) {items : List String} (h : items ≠ []) :
    join sep (items ++ [last]) = join sep items ++ sep ++ last := by
  induction items with
  | nil => exact absurd rfl h
  | cons item items ih =>
    cases items with
    | nil => simp [join]
    | cons next items =>
      rw [List.cons_append, List.cons_append, join_cons_cons, ← List.cons_append, ih (by simp),
        join_cons_cons]
      simp only [String.append_assoc]

/-- There is no line feed in a literal: it would be escaped. -/
theorem newline_notMem_escape (q : QuoteStyle) (s : String) :
    '\n' ∉ (q.escape s).toList := by
  rw [QuoteStyle.escape, String.toList_ofList]
  intro h
  obtain ⟨c, -, hc⟩ := List.mem_flatMap.1 h
  have hpair : ∀ {d : Char}, '\n' ∈ ['\\', d] → '\n' = d := by
    intro d hd
    exact (List.mem_pair.1 hd).resolve_left (by decide)
  unfold QuoteStyle.escapeChar at hc
  split_ifs at hc with hslash hfeed
  · cases hpair hc
  · cases hpair hc
  · cases hpair hc
  · cases hpair hc
  · exact hfeed (hpair hc).symm
  · exact hfeed (List.mem_singleton.1 hc).symm

end Text

namespace Reading

/-! ## Reading -/

/-- A case of an enumeration. -/
structure EnumCase where
  /-- The name as it is written. -/
  name : String
  raw : Literal

/-- What an enumeration is declared to be. -/
structure Enumeration where
  /-- The type of raw values. -/
  rawType : String
  cases : List EnumCase

/-- What a name stands for: backticks only make a name of a reserved word. -/
def bareName (name : String) : String :=
  ((Text.dropFront? "`" name).bind (Text.dropBack? "`")).getD name

namespace Dialect

/-- The type of raw values, if all of them are numbers and if not. -/
def rawType : Dialect → Bool → String
  | dart, true => "num"
  | y, true => y.scalarType .number
  | y, false => y.scalarType .string

/-- What stands before the cases of an enumeration. -/
def declarationStart : Dialect → (name rawType : String) → String
  | swift, name, rawType => "enum " ++ name ++ ": " ++ (rawType ++ ", CaseIterable \x7b\n")
  | kotlin, name, rawType => "enum class " ++ name ++ "(val value: " ++ (rawType ++ ") \x7b\n")
  | dart, name, _ => "enum " ++ name ++ " \x7b\n"

/-- What stands behind the cases of an enumeration. -/
def declarationEnd : Dialect → (name rawType : String) → String
  | swift, _, _ => "\n\x7d"
  | kotlin, _, _ => ";\n\x7d"
  | dart, name, rawType =>
    ";\n\n  const " ++ name ++ "(this.value);\n  final " ++ rawType ++ " value;\n\x7d"

/-- What stands at the end of a case that another one follows. -/
def caseMark : Dialect → String
  | swift => ""
  | kotlin | dart => ","

/-- What a case starts with. -/
def caseStart : Dialect → String
  | swift => "    case "
  | kotlin => "    "
  | dart => "  "

/-- Reads the name and the raw value of a case. In Swift the raw value is the name if no other one
is given. -/
def readEntry : Dialect → String → Option EnumCase
  | swift, entry =>
    match Text.cut? " = " entry with
    | some (name, raw) => do some ⟨name, ← swift.readLiteral raw⟩
    | none => some ⟨entry, .text (bareName entry)⟩
  | y, entry => do
    let (name, raw) ← Text.cut? "(" entry
    some ⟨name, ← y.readLiteral (← Text.dropBack? ")" raw)⟩

/-- Reads a case. -/
def readCase (y : Dialect) (line : String) : Option EnumCase := do
  y.readEntry (← Text.dropFront? y.caseStart line)

/-- Reads the lines of cases. -/
def readCases (y : Dialect) : List String → Option (List EnumCase)
  | [] => some []
  | [line] => do some [← y.readCase line]
  | line :: next :: lines => do
    some ((← y.readCase (← Text.dropBack? y.caseMark line)) :: (← readCases y (next :: lines)))

/-- Reads the declaration of an enumeration of a given name, with raw values of the type of numbers
or of the type of texts. -/
def readBody (y : Dialect) (name : String) (numeric : Bool) (source : String) :
    Option Enumeration :=
  (((Text.dropFront? (y.declarationStart name (y.rawType numeric)) source).bind fun rest =>
    Text.dropBack? (y.declarationEnd name (y.rawType numeric)) rest).bind fun body =>
    (y.readCases (Text.splitAtChar '\n' body)).map (⟨y.rawType numeric, ·⟩))

/-- Reads the declaration of an enumeration of a given name. -/
def readEnumeration (y : Dialect) (name source : String) : Option Enumeration :=
  (y.readBody name true source).or (y.readBody name false source)

/-- The case of an enumeration of a given name that a text refers to. Swift finds the enumeration
from the type that is expected. -/
def readReference : Dialect → (name text : String) → Option String
  | swift, _, text => Text.dropFront? "." text
  | kotlin, name, text | dart, name, text => Text.dropFront? (name ++ ".") text

/-! ## Cases -/

/-- The name of the case for a value. -/
def caseName : Dialect → Json.Value → String
  | swift, v => Swift.ident (caseIdent v)
  | kotlin, v => Kotlin.constant v
  | dart, v => Dart.ident (caseIdent v)

/-- The raw value of the case for a value. -/
def rawLiteral (y : Dialect) : Json.Value → Literal
  | .number n => .number (y.language.number n)
  | v => .text v.label

/-- The case for a value. -/
def caseOf (y : Dialect) (v : Json.Value) : EnumCase := ⟨y.caseName v, y.rawLiteral v⟩

/-- The line that declares the case for a value. -/
def caseLine : Dialect → Json.Value → String
  | swift => Swift.enumerationCase
  | kotlin => Kotlin.enumerationEntry
  | dart => Dart.enumerationEntry

variable {y : Dialect} {v : Json.Value} {c : Char}

theorem isWordChar_of_mem_caseIdent (h : c ∈ (caseIdent v).toList) : isWordChar c := by
  have hchar : ∀ {d : Char}, Text.isPlainAlphanumeric d ∨ d = '_' → isWordChar d := by
    rintro d (hd | rfl)
    · have hrange := Text.toNat_lt_of_plain hd
      simp [isWordChar, hd, Text.isBlankChar, Text.inRanges, Text.blankRanges]
      omega
    · rfl
  have hfilter : ∀ {d : Char}, d ∈ ((Text.camel v.label).toList.filter fun c =>
      Text.isPlainAlphanumeric c || c = '_') → isWordChar d := by
    intro d hd
    exact hchar (by simpa using (List.mem_filter.1 hd).2)
  unfold caseIdent at h
  dsimp only at h
  split at h
  · have hall : "empty".toList.all isWordChar = true := rfl
    exact List.all_eq_true.1 hall c h
  · split_ifs at h
    · rw [String.toList_ofList] at h
      rcases List.mem_cons.1 h with rfl | h
      · rfl
      · exact hfilter h
    · rw [String.toList_ofList] at h
      exact hfilter h

/-- A name of a case is a word, perhaps in backticks. -/
theorem notMem_caseName (hword : isWordChar c = false) (hquote : c ≠ '`') :
    c ∉ (y.caseName v).toList := by
  have hident : c ∉ (caseIdent v).toList := fun h =>
    Bool.false_ne_true (hword.symm.trans (isWordChar_of_mem_caseIdent h))
  cases y with
  | swift =>
    rw [caseName, Swift.ident]
    split
    · rw [Swift.escapeReserved, String.toList_append, String.toList_append]
      simp [hident, hquote]
    · exact hident
  | kotlin =>
    intro h
    have hall : ∀ d ∈ (Text.upperSnake (caseIdent v)).toList, isWordChar d :=
      Text.isWordChar_of_mem_apply (by simp [Text.NamingStyle.upperSnake, isWordChar,
        Text.isPlainAlphanumeric, Text.isBlankChar, Text.inRanges, Text.blankRanges])
        fun d hd => isWordChar_of_mem_caseIdent hd
    exact Bool.false_ne_true (hword.symm.trans (hall c h))
  | dart =>
    rw [caseName, Dart.ident]
    split
    · rw [Dart.escapeReserved, String.toList_append]
      have hmark : c ≠ '_' := by
        rintro rfl
        cases hword
      simp [hident, hmark]
    · exact hident

/-- A name that a reserved word has been made of stands for this word. -/
theorem bareName_ident (v : Json.Value) : bareName (Swift.ident (caseIdent v)) = caseIdent v := by
  rw [Swift.ident, bareName]
  split
  · rw [Swift.escapeReserved, String.append_assoc, Text.dropFront?_append, Option.bind_some,
      Text.dropBack?_append, Option.getD_some]
  · have hnone : Text.dropFront? "`" (caseIdent v) = none := by
      cases hchars : (caseIdent v).toList with
      | nil => rw [Text.dropFront?, hchars]; rfl
      | cons d rest =>
        have hne : '`' ≠ d := by
          rintro rfl
          have hword := isWordChar_of_mem_caseIdent (v := v) (c := '`') (by simp [hchars])
          cases hword
        rw [Text.dropFront?, hchars]
        change Option.map _ (Text.dropFrontList ['`'] (d :: rest)) = none
        rw [Text.dropFrontList_of_ne hne, Option.map_none]
    rw [hnone, Option.bind_none, Option.getD_none]

/-! ## Raw values -/

/-- The raw value of the case for a value, as it is written where one is. -/
def rawText (y : Dialect) : Json.Value → String
  | .number n => y.language.number n
  | v => y.language.quoted v.label

theorem reads_rawText (y : Dialect) (v : Json.Value) : y.Reads (y.rawText v) (y.rawLiteral v) := by
  cases v with
  | number n => exact reads_number y n
  | null | bool | string | array | object => exact reads_quoted y _

theorem newline_notMem_rawText (y : Dialect) (v : Json.Value) : '\n' ∉ (y.rawText v).toList := by
  have hquoted : ∀ s, '\n' ∉ (y.language.quoted s).toList := by
    intro s
    have hescape : ∀ q : Text.QuoteStyle, '\n' ∉ (q.escape s).toList :=
      fun q => Text.newline_notMem_escape q s
    cases y with
    | swift =>
      change '\n' ∉ ("\"" ++ Text.QuoteStyle.double.escape s ++ "\"").toList
      simp [hescape]
    | kotlin =>
      change '\n' ∉ ("\"" ++ Text.QuoteStyle.template.escape s ++ "\"").toList
      simp [hescape]
    | dart =>
      change '\n' ∉ ("'" ++ Text.QuoteStyle.single.escape s ++ "'").toList
      simp [hescape]
  cases v with
  | number n =>
    obtain ⟨sign, c, cs, hdigits, hsign, hc, hcs⟩ := isNumeral_number y n
    intro h
    rw [rawText, hdigits] at h
    rcases List.mem_append.1 h with h | h
    · rcases List.mem_pair.1 hsign with rfl | rfl
      · cases h
      · exact absurd h (by decide)
    · rcases List.mem_cons.1 h with rfl | h
      · cases hc
      · cases hcs _ h
  | null | bool | string | array | object => exact hquoted _

theorem rawLiteral_of_isNumber_eq_false (y : Dialect) (h : isNumber v = false) :
    y.rawLiteral v = .text v.label := by
  cases v with
  | number n => cases h
  | null | bool | string | array | object => rfl

/-- The name and the raw value as a case declares them. In Swift a raw value that equals the name is
left out. -/
def entryText : Dialect → Json.Value → String
  | swift, v =>
    if isNumber v = false ∧ caseIdent v = v.label then swift.caseName v
    else swift.caseName v ++ " = " ++ swift.rawText v
  | y, v => y.caseName v ++ "(" ++ (y.rawText v ++ ")")

theorem caseLine_eq (y : Dialect) (v : Json.Value) :
    y.caseLine v = y.caseStart ++ y.entryText v := by
  cases y with
  | swift =>
    have hcase : ∀ w, Swift.enumerationCase w = "    case " ++ swift.entryText w := by
      intro w
      cases w with
      | number n =>
        have hnumber : Swift.enumerationCase (.number n) =
            "    case " ++ Swift.ident (caseIdent (.number n)) ++ " = " ++ n.text := rfl
        rw [hnumber, entryText, if_neg (by simp [isNumber])]
        simp only [← String.append_assoc]
        rfl
      | null | bool | string | array | object =>
        unfold entryText Swift.enumerationCase
        simp only [isNumber, true_and]
        split
        · rfl
        · simp only [← String.append_assoc]
          rfl
    exact hcase v
  | kotlin | dart => cases v <;> simp only [entryText, ← String.append_assoc] <;> rfl

theorem readEntry_entryText (y : Dialect) (v : Json.Value) :
    y.readEntry (y.entryText v) = some (y.caseOf v) := by
  have hraw := (reads_rawText y v).readLiteral
  have hspace := notMem_caseName (y := y) (v := v) (c := ' ') rfl (by decide)
  have hround := notMem_caseName (y := y) (v := v) (c := '(') rfl (by decide)
  cases y with
  | swift =>
    rw [entryText, readEntry]
    split_ifs with hname
    · obtain ⟨hnumber, hlabel⟩ := hname
      rw [Text.cut?_eq_none (by decide) hspace, caseOf, rawLiteral_of_isNumber_eq_false _ hnumber, ← hlabel]
      simp only [caseName, bareName_ident]
    · rw [Text.cut?_append (by decide) hspace]
      simp only [hraw, caseOf, Option.bind_eq_bind, Option.bind_some]
  | kotlin | dart =>
    rw [entryText, readEntry, Text.cut?_append (by decide) hround]
    · simp only [Text.dropBack?_append, hraw, caseOf, Option.bind_eq_bind, Option.bind_some]
    · nofun
    · nofun

theorem readCase_caseLine (y : Dialect) (v : Json.Value) :
    y.readCase (y.caseLine v) = some (y.caseOf v) := by
  rw [readCase, caseLine_eq, Text.dropFront?_append, Option.bind_eq_bind, Option.bind_some,
    readEntry_entryText]

theorem newline_notMem_caseLine (y : Dialect) (v : Json.Value) : '\n' ∉ (y.caseLine v).toList := by
  have hname := notMem_caseName (y := y) (v := v) (c := '\n') rfl (by decide)
  have hraw := newline_notMem_rawText y v
  rw [caseLine_eq]
  cases y with
  | swift =>
    rw [entryText]
    split_ifs <;> simp [caseStart, hname, hraw]
  | kotlin | dart => simp [caseStart, entryText, hname, hraw]

theorem readCases_marked (y : Dialect) : ∀ values : List Json.Value,
    y.readCases (Text.marked y.caseMark (values.map y.caseLine)) = some (values.map y.caseOf)
  | [] => rfl
  | [v] => by
    rw [List.map_singleton, Text.marked, readCases, readCase_caseLine]
    rfl
  | v :: w :: values => by
    obtain ⟨line, lines, hlines⟩ := List.exists_cons_of_ne_nil
      (Text.marked_ne_nil y.caseMark (List.cons_ne_nil (y.caseLine w) (values.map y.caseLine)))
    have hrest := readCases_marked y (w :: values)
    rw [List.map_cons, hlines] at hrest
    rw [List.map_cons, List.map_cons, Text.marked, hlines, readCases, Text.dropBack?_append,
      Option.bind_eq_bind, Option.bind_some, readCase_caseLine, hrest]
    rfl

/-! ## Declarations -/

/-- What is declared are the lines of the cases, with a mark behind each but the last. -/
theorem enumeration_eq (y : Dialect) (name : String) {values : List Json.Value} (h : values ≠ []) :
    y.language.enumeration name values =
      y.declarationStart name (y.rawType (values.all isNumber)) ++
        (Text.join "\n" (Text.marked y.caseMark (values.map y.caseLine)) ++
          y.declarationEnd name (y.rawType (values.all isNumber))) := by
  rw [Text.join_marked]
  cases y with
  | swift =>
    have hcases : values.map Swift.enumerationCase ≠ [] := by simpa using h
    have hraw : (if values.all isNumber then "Double" else "String") =
        swift.rawType (values.all isNumber) := by
      cases values.all isNumber <;> rfl
    have hopen : ", CaseIterable \x7b\n" = ", CaseIterable \x7b" ++ "\n" := rfl
    have hclose : "\n\x7d" = "\n" ++ "\x7d" := rfl
    change Text.unlines (_ :: (values.map Swift.enumerationCase ++ ["\x7d"])) = _
    rw [Text.unlines_cons _ (by simp), Text.unlines, Text.join_append_singleton _ _ hcases, hraw]
    simp only [declarationStart, declarationEnd, hopen, hclose, ← String.append_assoc]
    rfl
  | kotlin =>
    have hraw : (if values.all isNumber then "Double" else "String") =
        kotlin.rawType (values.all isNumber) := by
      cases values.all isNumber <;> rfl
    have hopen : ") \x7b\n" = ") \x7b" ++ "\n" := rfl
    have hclose : ";\n\x7d" = ";" ++ "\n" ++ "\x7d" := rfl
    change Text.unlines [_, _, _] = _
    rw [hraw]
    simp only [Text.unlines, Text.join_cons_cons, declarationStart, declarationEnd, hopen, hclose,
      ← String.append_assoc]
    rfl
  | dart =>
    have hraw : (if values.all isNumber then "num" else "String") =
        dart.rawType (values.all isNumber) := by
      cases values.all isNumber <;> rfl
    have hopen : " \x7b\n" = " \x7b" ++ "\n" := rfl
    have hmiddle : ";\n\n  const " = ";" ++ "\n" ++ "" ++ "\n" ++ "  const " := rfl
    have hfield : "(this.value);\n  final " = "(this.value);" ++ "\n" ++ "  final " := rfl
    have hclose : " value;\n\x7d" = " value;" ++ "\n" ++ "\x7d" := rfl
    change Text.unlines [_, _, _, _, _, _] = _
    rw [hraw]
    simp only [Text.unlines, Text.join_cons_cons, declarationStart, declarationEnd, hopen, hmiddle,
      hfield, hclose, ← String.append_assoc]
    rfl

/-- The declaration of an enumeration with texts is not that of one with numbers. -/
theorem dropBoth?_eq_none (y : Dialect) (name body : String) :
    ((Text.dropFront? (y.declarationStart name (y.rawType true))
      (y.declarationStart name (y.rawType false) ++
        (body ++ y.declarationEnd name (y.rawType false)))).bind fun rest =>
      Text.dropBack? (y.declarationEnd name (y.rawType true)) rest) = none := by
  cases y with
  | swift =>
    rw [declarationStart, declarationStart]
    generalize "enum " ++ name ++ ": " = common
    rw [String.append_assoc, Text.dropFront?_append_of_ne (c := 'D') (d := 'S') _ _ (by decide),
      Option.bind_none] <;> simp [rawType, scalarType]
  | kotlin =>
    rw [declarationStart, declarationStart]
    generalize "enum class " ++ name ++ "(val value: " = common
    rw [String.append_assoc, Text.dropFront?_append_of_ne (c := 'D') (d := 'S') _ _ (by decide),
      Option.bind_none] <;> simp [rawType, scalarType]
  | dart =>
    have hstart : dart.declarationStart name (dart.rawType true) =
        dart.declarationStart name (dart.rawType false) := rfl
    -- What ends the declaration differs in the last letters of `num` and `String`.
    have hlast : ∀ front last : String, last.toList ≠ [] →
        (front ++ last).toList.getLast? = last.toList.getLast? := by
      intro front last hne
      rw [String.toList_append, List.getLast?_append_of_ne_nil _ hne]
    rw [hstart, Text.dropFront?_append, Option.bind_some, declarationEnd, declarationEnd,
      ← String.append_assoc, ← String.append_assoc, ← String.append_assoc,
      Text.dropBack?_append_of_ne (c := 'm') (d := 'g')]
    · exact (hlast _ "num" (by decide)).trans rfl
    · exact (hlast _ "String" (by decide)).trans rfl
    · decide

theorem readEnumeration_eq {name body : String} {cases : List EnumCase} (numeric : Bool)
    (h : y.readCases (Text.splitAtChar '\n' body) = some cases) :
    y.readEnumeration name (y.declarationStart name (y.rawType numeric) ++
      (body ++ y.declarationEnd name (y.rawType numeric))) = some ⟨y.rawType numeric, cases⟩ := by
  have hread : y.readBody name numeric (y.declarationStart name (y.rawType numeric) ++
      (body ++ y.declarationEnd name (y.rawType numeric))) = some ⟨y.rawType numeric, cases⟩ := by
    rw [readBody, Text.dropFront?_append, Option.bind_some, Text.dropBack?_append, Option.bind_some,
      h, Option.map_some]
  cases numeric with
  | true => rw [readEnumeration, hread, Option.some_or]
  | false =>
    have hnone : y.readBody name true (y.declarationStart name (y.rawType false) ++
        (body ++ y.declarationEnd name (y.rawType false))) = none := by
      rw [readBody, dropBoth?_eq_none, Option.bind_none]
    rw [readEnumeration, hnone, Option.none_or, hread]

/-- What is declared for values is read as one case for each of them. -/
theorem readEnumeration_enumeration (y : Dialect) (name : String) {values : List Json.Value}
    (h : values ≠ []) : y.readEnumeration name (y.language.enumeration name values) =
      some ⟨y.rawType (values.all isNumber), values.map y.caseOf⟩ := by
  have hlines : Text.marked y.caseMark (values.map y.caseLine) ≠ [] :=
    Text.marked_ne_nil _ (by simpa using h)
  have hfeed : ∀ line ∈ Text.marked y.caseMark (values.map y.caseLine), '\n' ∉ line.toList := by
    intro line hline
    obtain ⟨item, hitem, hline⟩ := Text.exists_of_mem_marked hline
    obtain ⟨v, -, rfl⟩ := List.mem_map.1 hitem
    have hcase := newline_notMem_caseLine y v
    rcases hline with rfl | rfl
    · exact hcase
    · cases y <;> simp [caseMark, hcase]
  have hsplit : Text.splitAtChar '\n'
      (Text.join "\n" (Text.marked y.caseMark (values.map y.caseLine))) =
        Text.marked y.caseMark (values.map y.caseLine) := Text.splitAtChar_join hlines hfeed
  rw [enumeration_eq y name h]
  refine readEnumeration_eq _ ?_
  rw [hsplit, readCases_marked]

end Dialect

end Reading

end DesignSystem
