import DesignSystem.Proofs.Reading.Names
import DesignSystem.Proofs.Reading.TypeExpr
import DesignSystem.Proofs.Types.Nominal
import DesignSystem.Proofs.Types.Scope

/-!
# Types of languages with named types can be read

* `NominalLanguage.Keeps`: what a language writes is good if its parts are. `NominalLanguage.map_good`
  concludes that all types are.
* `keeps_swift`, `keeps_kotlin`, `keeps_dart`: each language writes what it can read.
-/

set_option autoImplicit false

namespace DesignSystem

open Reading

namespace TypeDescriptor

/-- The names of a descriptor's own parameters are identifiers, and those of its fields are in either
style of types and fields. -/
def OwnNameable : TypeDescriptor → Prop
  | signed .function params _ => ∀ p ∈ params, isWord p.1
  | object properties _ => ∀ p ∈ properties, isWord p.1 ∧ isWord (Text.camel p.1)
  | _ => True

/-- All names in a descriptor are identifiers. -/
def IsNameable (d : TypeDescriptor) : Prop := ∀ inner, Position false d inner → inner.OwnNameable

end TypeDescriptor

namespace NominalLanguage

/-- What a language writes is good if its parts are. -/
structure Keeps (l : NominalLanguage) (Good : String → Prop) : Prop where
  word : ∀ {name : String}, isWord name → Good name
  primitive : ∀ kind, Good (l.primitive kind)
  complex : ∀ kind, Good (l.complex kind)
  custom : ∀ kind, Good (l.custom kind)
  noResult : Good l.noResult
  callback : ∀ {params : List String} {returns : String}, (∀ p ∈ params, Good p) → Good returns →
    Good (l.callback params returns)
  list : ∀ {item : String}, Good item → Good (l.list item)
  openObject : Good l.openObject
  object : ∀ {hint : String} {fields : List (String × String)},
    (∀ f ∈ fields, isWord (Text.camel f.1) ∧ Good f.2) → (l.object hint fields).source = none →
    Good (l.object hint fields).text

variable {l : NominalLanguage} {Good : String → Prop} {hint : String}

/-- Under a name that is an identifier a descriptor only has good types. -/
def IsGood (l : NominalLanguage) (Good : String → Prop) (d : TypeDescriptor) : Prop :=
  ∀ hint type, isWord hint → (l.map d hint).result = .ok type → Good type

variable (hl : l.Keeps Good)
include hl

theorem Assigns.good {ds : List Declaration} {d : TypeDescriptor} {type : String}
    (h : l.Assigns ds d hint type) (hd : d.IsNameable) (hhint : isWord hint) : Good type := by
  induction h with
  | @primitive kind => exact hl.primitive kind
  | @custom kind => exact hl.custom kind
  | truth => exact hl.primitive .boolean
  | complex kind | @signed kind => exact hl.complex kind
  | enumeration | alternatives | object => exact hl.word hhint
  | action _ ih =>
    have hnames := hd _ (.self _)
    refine hl.callback (List.forall_mem_map.2 fun p hp => ?_) hl.noResult
    exact ih p hp (fun inner hi => hd inner (.param hp hi)) (isWord_memberHint hhint (hnames p hp))
  | callback _ _ ih ihr =>
    have hnames := hd _ (.self _)
    refine hl.callback (List.forall_mem_map.2 fun p hp => ?_)
      (ihr (fun inner hi => hd inner (.result hi)) (isWord_resultHint hhint))
    exact ih p hp (fun inner hi => hd inner (.param hp hi)) (isWord_memberHint hhint (hnames p hp))
  | common _ hcommon ih =>
    obtain ⟨⟨d, index⟩, hmem, rfl⟩ := List.mem_map.1 (mem_of_commonMember? hcommon)
    have hmember := List.fst_mem_of_mem_zipIdx hmem
    exact ih _ hmem (fun inner hi => hd inner (.member hmember hi)) (isWord_optionHint hhint index)
  | list _ ih => exact hl.list (ih (fun inner hi => hd inner (.item hi)) (isWord_itemHint hhint))
  | openObject => exact hl.openObject
  | record _ hsource ih =>
    have hnames := hd _ (.self _)
    refine hl.object (List.forall_mem_map.2 fun p hp => ⟨(hnames p hp).2, ?_⟩) hsource
    exact ih p hp (fun inner hi => hd inner (.field (.inl rfl) hp hi))
      (isWord_memberHint hhint (hnames p hp).1)

/-- All types of descriptors whose names are identifiers are good. -/
theorem map_good {d : TypeDescriptor} (hd : d.IsNameable) : l.IsGood Good d :=
  fun _ _ hhint h => (assigns_iff.2 h).good hl hd hhint

end NominalLanguage

/-- Kotlin and Dart write lists alike. -/
theorem Reading.spells_listOf {text : String} {ts : List Tree} (h : Spells text ts) :
    Spells ("List<" ++ text ++ ">") [.word "List", .group .angle (partsOf [ts])] := by
  have hangle : Spells ("<" ++ Text.join ", " [text] ++ ">") [.group .angle (partsOf [ts])] :=
    .angle (.cons h .nil)
  have hname : Spells "List" [.word "List"] := spells_of_trees? rfl
  have htext : "List<" ++ text ++ ">" = "List" ++ ("<" ++ text ++ ">") := by
    rw [← String.append_assoc, ← String.append_assoc]
    rfl
  exact htext ▸ hname.append hangle (startsApart_append (startsApart_append rfl _) _)

/-! ## Swift and Kotlin -/

namespace Reading.Arrowed

/-- A text can be read as a type. -/
def Readable (text : String) : Prop := ∃ ts t, Spells text ts ∧ readFrom ts = some t

variable {text : String}

theorem readable_of_trees? (ts : List Tree) {t : TypeExpr} (htrees : trees? text = some ts)
    (h : readFrom ts = some t) : Readable text := ⟨ts, t, spells_of_trees? htrees, h⟩

theorem readable_word (h : isWord text) : Readable text := ⟨_, _, .word h, rfl⟩

theorem exists_readParams {params : List String} (h : ∀ p ∈ params, Readable p) :
    ∃ trees types, List.Forall₂ Spells params trees ∧ readParams (partsOf trees) = some types := by
  have hone : ∀ p ∈ params, ∃ param : Option String × TypeExpr,
      ∃ ts, Spells p ts ∧ (readFrom ts).map (fun t => (none, t)) = some param := by
    intro p hp
    obtain ⟨ts, t, hspells, hread⟩ := h p hp
    exact ⟨(none, t), ts, hspells, by rw [hread]; rfl⟩
  obtain ⟨types, htypes⟩ := exists_forall₂ hone
  have hcons : ∀ ts rest param types, (readFrom ts).map (fun t => (none, t)) = some param →
      readParams rest = some types → readParams (ts :: rest) = some (param :: types) := by
    intro ts rest param types hts hrest
    obtain ⟨t, ht, rfl⟩ := Option.map_eq_some_iff.1 hts
    rw [readParams, ht, hrest]
    · rfl
    · rintro rfl
      cases ht
  obtain ⟨trees, htrees, hread⟩ := exists_parts _ readParams rfl rfl hcons htypes
  exact ⟨trees, types, htrees, hread⟩

theorem readable_callback {params : List String} {returns : String} (hparams : ∀ p ∈ params, Readable p)
    (h : Readable returns) : Readable ("(" ++ Text.join ", " params ++ ") -> " ++ returns) := by
  obtain ⟨trees, types, htrees, htypes⟩ := exists_readParams hparams
  obtain ⟨ts, t, hspells, hread⟩ := h
  have htext : "(" ++ Text.join ", " params ++ ") -> " ++ returns =
      "(" ++ Text.join ", " params ++ ")" ++ " -> " ++ returns := by
    simp only [String.append_assoc]
    rfl
  have harrow : Joins " -> " [.arrow .thin] := ⟨rfl, fun _ _ => rfl⟩
  refine ⟨.group .round (partsOf trees) :: .arrow .thin :: ts, .callback types t,
    htext ▸ (Spells.round htrees).joined harrow hspells, ?_⟩
  rw [readFrom, htypes, hread]
  rfl

theorem readable_brackets (h : Readable text) : Readable ("[" ++ text ++ "]") := by
  obtain ⟨ts, t, hspells, hread⟩ := h
  have hsquare : Spells ("[" ++ Text.join ", " [text] ++ "]") [.group .square (partsOf [ts])] :=
    .square (.cons hspells .nil)
  have hoperand : readOperand (.group .square [ts]) = some (.list t) := by
    rw [readOperand, hread]
    · rfl
    · -- a type does not go on with a colon
      rintro key value rfl
      cases hread
  refine ⟨_, .list t, hsquare, ?_⟩
  change (readOperand (.group .square [ts])).bind (readRest · []) = _
  rw [hoperand]
  rfl

theorem readable_list (h : Readable text) : Readable ("List<" ++ text ++ ">") := by
  obtain ⟨ts, t, hspells, hread⟩ := h
  have hargs : readArgs [ts] = some [t] := by
    rw [readArgs, hread]
    rfl
  refine ⟨_, .generic (.name "List") [t], spells_listOf hspells, ?_⟩
  change (readArgs [ts]).bind (fun args => readRest (.generic (.name "List") args) []) = _
  rw [hargs]
  rfl

end Reading.Arrowed

open Reading.Arrowed in
theorem keeps_swift : Swift.language.Keeps Reading.Arrowed.Readable where
  word := readable_word
  primitive kind := by cases kind <;> exact readable_word rfl
  complex kind := by
    cases kind with
    | function => exact readable_of_trees? [.group .round [[]], .arrow .thin, .word "Void"] rfl rfl
    | ref =>
      exact readable_of_trees?
        [.word "FocusState", .group .angle [[.word "Bool"]], .mark .dot, .word "Binding"] rfl rfl
    | node | element | date | file => exact readable_word rfl
  custom kind := by
    cases kind with
    | other name =>
      change Readable "String"
      exact readable_word rfl
    | _ => exact readable_word rfl
  noResult := readable_word rfl
  callback := readable_callback
  list := readable_brackets
  openObject := readable_of_trees? [.group .square [[.word "String", .mark .colon, .word "Any"]]] rfl rfl
  object _ h := nomatch h

open Reading.Arrowed in
theorem keeps_kotlin : Kotlin.language.Keeps Reading.Arrowed.Readable where
  word := readable_word
  primitive kind := by cases kind <;> exact readable_word rfl
  complex kind := by
    cases kind with
    | function => exact readable_of_trees? [.group .round [[]], .arrow .thin, .word "Unit"] rfl rfl
    | node | element =>
      exact readable_of_trees? [.mark .at, .word "Composable", .group .round [[]], .arrow .thin,
        .word "Unit"] rfl rfl
    | date =>
      exact readable_of_trees?
        [.word "java", .mark .dot, .word "time", .mark .dot, .word "Instant"] rfl rfl
    | file =>
      exact readable_of_trees?
        [.word "android", .mark .dot, .word "net", .mark .dot, .word "Uri"] rfl rfl
    | ref => exact readable_word rfl
  custom kind := by
    cases kind with
    | other name =>
      change Readable "String"
      exact readable_word rfl
    | _ => exact readable_word rfl
  noResult := readable_word rfl
  callback := readable_callback
  list := readable_list
  openObject := readable_of_trees?
    [.word "Map", .group .angle [[.word "String"], [.word "Any", .mark .question]]] rfl rfl
  object _ h := nomatch h

/-! ## Dart -/

namespace Reading.Dart

/-- A text can be read as a type. -/
def Readable (text : String) : Prop := ∃ ts t, Spells text ts ∧ readFrom ts = some (t, none)

variable {text : String}

theorem readable_of_trees? (ts : List Tree) {t : TypeExpr} (htrees : trees? text = some ts)
    (h : readFrom ts = some (t, none)) : Readable text := ⟨ts, t, spells_of_trees? htrees, h⟩

theorem readable_word (h : isWord text) : Readable text := ⟨_, _, .word h, rfl⟩

theorem exists_readParams {params : List String} (h : ∀ p ∈ params, Readable p) :
    ∃ trees types, List.Forall₂ Spells params trees ∧ readParams (partsOf trees) = some types := by
  have hone : ∀ p ∈ params, ∃ param : Option String × TypeExpr,
      ∃ ts, Spells p ts ∧ (readFrom ts).map Prod.swap = some param := by
    intro p hp
    obtain ⟨ts, t, hspells, hread⟩ := h p hp
    exact ⟨(none, t), ts, hspells, by rw [hread]; rfl⟩
  obtain ⟨types, htypes⟩ := exists_forall₂ hone
  have hcons : ∀ ts rest param types, (readFrom ts).map Prod.swap = some param →
      readParams rest = some types → readParams (ts :: rest) = some (param :: types) := by
    intro ts rest param types hts hrest
    obtain ⟨⟨t, name⟩, ht, rfl⟩ := Option.map_eq_some_iff.1 hts
    rw [readParams, ht, hrest]
    · rfl
    · rintro rfl
      cases ht
  obtain ⟨trees, htrees, hread⟩ := exists_parts _ readParams rfl rfl hcons htypes
  exact ⟨trees, types, htrees, hread⟩

theorem readable_callback {params : List String} {returns : String} (hparams : ∀ p ∈ params, Readable p)
    (h : Readable returns) : Readable (returns ++ " Function(" ++ Text.join ", " params ++ ")") := by
  obtain ⟨trees, types, htrees, htypes⟩ := exists_readParams hparams
  obtain ⟨ts, t, hspells, hread⟩ := h
  have htext : returns ++ " Function(" ++ Text.join ", " params ++ ")" =
      returns ++ " Function" ++ ("(" ++ Text.join ", " params ++ ")") := by
    have hopen : " Function(" = " Function" ++ "(" := rfl
    simp only [hopen, String.append_assoc]
  have hname : Spells " Function" [.word "Function"] := spells_of_trees? rfl
  have hround := (hspells.append hname rfl).append (.round htrees)
    (startsApart_append (startsApart_append rfl _) _)
  refine ⟨_, .callback types t, htext ▸ hround, ?_⟩
  rw [List.append_assoc, readFrom_append hread]
  change (readParams (partsOf trees)).bind _ = _
  rw [htypes]
  rfl

theorem readable_list (h : Readable text) : Readable ("List<" ++ text ++ ">") := by
  obtain ⟨ts, t, hspells, hread⟩ := h
  have hargs : readArgs [ts] = some [t] := by
    rw [readArgs, hread]
    rfl
  refine ⟨_, .generic (.name "List") [t], spells_listOf hspells, ?_⟩
  change (readArgs [ts]).bind (fun args => readRest (.generic (.name "List") args) []) = _
  rw [hargs]
  rfl

/-- The fields of a record type are read, from their types and names. -/
theorem exists_readFields {fields : List (String × String)}
    (h : ∀ f ∈ fields, isWord f.1 ∧ Readable f.2) :
    ∃ trees types, List.Forall₂ Spells (fields.map fun f => f.2 ++ " " ++ f.1) trees ∧
      readFields trees = some types := by
  have hspace : Joins " " [] := ⟨rfl, fun current _ => (List.append_nil current).symm ▸ rfl⟩
  induction fields with
  | nil => exact ⟨[], [], .nil, rfl⟩
  | cons f fields ih =>
    obtain ⟨⟨hname, ts, t, hspells, hread⟩, hfields⟩ := List.forall_mem_cons.1 h
    obtain ⟨trees, types, htrees, htypes⟩ := ih hfields
    refine ⟨(ts ++ [] ++ [.word f.1]) :: trees, (f.1, t) :: types,
      .cons (hspells.joined hspace (.word hname)) htrees, ?_⟩
    rw [readFields, List.append_nil, readFrom_append hread, htypes]
    rfl

theorem readable_record {fields : List (String × String)} (hne : fields ≠ [])
    (h : ∀ f ∈ fields, isWord f.1 ∧ Readable f.2) :
    Readable ("(\x7b" ++ Text.join ", " (fields.map fun f => f.2 ++ " " ++ f.1) ++ "\x7d)") := by
  obtain ⟨trees, types, htrees, htypes⟩ := exists_readFields h
  have htrees_ne : trees ≠ [] := by
    rintro rfl
    exact hne (List.map_eq_nil_iff.1 (List.forall₂_nil_right_iff.1 htrees))
  have hcurly : Spells ("\x7b" ++ Text.join ", " (fields.map fun f => f.2 ++ " " ++ f.1) ++ "\x7d")
      [.group .curly (partsOf trees)] :=
    .group ⟨rfl, fun _ _ => rfl⟩ rfl commas ⟨rfl, fun _ _ => State.run_singleton _ _⟩ htrees
  have htext : "(\x7b" ++ Text.join ", " (fields.map fun f => f.2 ++ " " ++ f.1) ++ "\x7d)" =
      "(" ++ ("\x7b" ++ Text.join ", " (fields.map fun f => f.2 ++ " " ++ f.1) ++ "\x7d") ++ ")" := by
    have hopen : "(\x7b" = "(" ++ "\x7b" := rfl
    have hclose : "\x7d)" = "\x7d" ++ ")" := rfl
    simp only [hopen, hclose, String.append_assoc]
  refine ⟨_, .object types none, htext ▸ hcurly.enclosed, ?_⟩
  rw [partsOf_of_ne_nil htrees_ne]
  change (readOperand (.group .round [[.group .curly trees]])).bind (readRest · []) = _
  rw [readOperand, htypes]
  rfl

end Reading.Dart

theorem isWord_ident {name : String} (h : isWord name) : isWord (Dart.ident name) := by
  unfold Dart.ident
  split
  · exact isWord_append h (List.forall_mem_singleton.2 rfl)
  · exact h

open Reading.Dart in
theorem keeps_dart : Dart.language.Keeps Reading.Dart.Readable where
  word := readable_word
  primitive kind := by cases kind <;> exact readable_word rfl
  complex kind := by cases kind <;> exact readable_word rfl
  custom kind := by
    cases kind with
    | other name =>
      change Readable "String"
      exact readable_word rfl
    | _ => exact readable_word rfl
  noResult := readable_word rfl
  callback := readable_callback
  list := readable_list
  openObject := readable_of_trees?
    [.word "Map", .group .angle [[.word "String"], [.word "Object", .mark .question]]] rfl rfl
  object {hint fields} h _ := by
    change Readable (if (fields.map _).isEmpty then "()" else _)
    split
    · exact readable_of_trees? [.group .round [[]]] rfl rfl
    · next hsome =>
      have hne : fields ≠ [] := by
        rintro rfl
        exact hsome rfl
      have hnamed : ∀ f ∈ fields.map fun f => (Dart.ident (Text.camel f.1), f.2),
          isWord f.1 ∧ Dart.Readable f.2 :=
        List.forall_mem_map.2 fun f hf => ⟨isWord_ident (h f hf).1, (h f hf).2⟩
      have hrecord := readable_record (mt List.map_eq_nil_iff.1 hne) hnamed
      rwa [List.map_map] at hrecord

end DesignSystem
