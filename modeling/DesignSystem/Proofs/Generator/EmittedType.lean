import DesignSystem.Generator.Angular
import DesignSystem.Proofs.Text.Case
import DesignSystem.Proofs.Types.TypeMarks
import DesignSystem.Types.Platform

/-!
# What the output of a callback emits

The type that an output emits is read off the type of its callback: what stands between the first
colon and the first arrow, if there is no comma in it.

* `emittedType_of_arrow`: a first parameter with an arrow in its type is read up to there.
* `emittedType_one`, `emittedType_several`: what is read where it has none.
* `emittedType_of_callback`: which callbacks emit the type of their only parameter.
-/

set_option autoImplicit false

namespace DesignSystem.Angular

open TypeScript

variable {name type last before after : String}

/-! ## Names and types -/

theorem notMem_name (hname : isIdentifier name) {c : Char}
    (hc : Text.isPlainAlphanumeric c = false ∧ c ≠ '_') : c ∉ name.toList := by
  intro hmem
  rcases isIdentifier_chars hname c hmem with hplain | heq
  · rw [hc.1] at hplain
    cases hplain
  · exact hc.2 heq

theorem visible_name (hname : isIdentifier name) (rest : String) :
    Text.StartsVisible (name ++ ": " ++ rest) := by
  obtain ⟨c, cs, hchars, hfirst, -⟩ := isIdentifier_iff.1 hname
  have hvisible : Text.isBlankChar c = false := by
    rcases hfirst with halpha | rfl
    · have hplain : Text.isPlainAlphanumeric c := Bool.or_eq_true_iff.2 (.inl halpha)
      exact Text.of_ascii (P := fun c => c.isAlpha → Text.isBlankChar c = false)
        (by decide +kernel) (Text.isPrintable_of_plain hplain).lt halpha
    · rfl
  exact ⟨c, by simp [hchars], hvisible⟩

theorem visible_type (h : Opens type) : Text.StartsVisible type := by
  obtain ⟨c, hc, hvisible, -⟩ := h
  exact ⟨c, hc, hvisible⟩

theorem trim_type (h : Framed type) : Text.trim type = type := by
  obtain ⟨⟨c, hc, hfirst, -⟩, ⟨d, hd, hlast, -⟩⟩ := h
  refine Text.trim_of_trimmed ⟨fun e he => ?_, fun e he => ?_⟩
  · rw [Option.some.inj (he.symm.trans hc)]
    exact hfirst
  · rw [Option.some.inj (he.symm.trans hd)]
    exact hlast

theorem not_infix_name (hname : isIdentifier name) {mark : String} (hmark : mark ∈ marks) :
    ¬ mark.toList <:+: name.toList := by
  have hall : ∀ mark ∈ marks, mark.toList.any fun c =>
      !Text.isPlainAlphanumeric c && c != '_' := by decide
  obtain ⟨c, hc, hother⟩ := List.any_eq_true.1 (hall mark hmark)
  exact fun hpart => notMem_name hname (by simpa using hother) (hpart.subset hc)

theorem contains_after_name (hname : isIdentifier name) {mark : String} (hmark : mark ∈ marks)
    (type : String) : Text.contains mark (name ++ ": " ++ type) = Text.contains mark type := by
  rw [Bool.eq_iff_iff, Text.contains_iff, Text.contains_iff, infix_field_iff hmark,
    or_iff_right (not_infix_name hname hmark)]

/-- No arrow starts in the name of a parameter. -/
theorem arrow_after_name (hname : isIdentifier name) {rest : List Char}
    (h : ") =>".toList <:+: (name ++ ": ").toList ++ rest) : ") =>".toList <:+: rest := by
  have hchars : (name ++ ": ").toList ++ rest = name.toList ++ ':' :: ' ' :: rest := by simp
  rw [hchars, Text.infix_append_cons_iff (by decide),
    Text.infix_cons_iff_of_head?_ne (by decide)] at h
  exact h.resolve_left (not_infix_name hname (by decide))

/-- An arrow does not stand at the very start of a type. -/
theorem opens_before (h : Opens type) (hcut : Text.cut? ") =>" type = some (before, after)) :
    Opens before := by
  obtain ⟨c, hc, hopens⟩ := h
  obtain ⟨rfl, -⟩ := (Text.cut?_eq_some_iff (by decide)).1 hcut
  rw [String.append_assoc, String.toList_append] at hc
  cases hbefore : before.toList with
  | nil =>
    rw [hbefore, String.toList_append] at hc
    cases hc
    exact absurd List.mem_cons_self hopens.2
  | cons d rest =>
    rw [hbefore] at hc
    cases hc
    exact ⟨c, by rw [hbefore]; rfl, hopens⟩

/-! ## Reading the first parameter -/

/-- What is emitted for the text that is taken for the type of the only parameter. A comma is taken
for one between parameters. -/
def shown (type : String) : String := if Text.contains ", " type then "unknown[]" else type

theorem emittedType_of_cut (hname : isIdentifier name) {rest : String}
    (hcut : Text.cut? ") =>" rest = some (before, after)) (hbefore : Text.StartsVisible before) :
    emittedType ("(" ++ (name ++ ": " ++ rest)) = shown (Text.trim before) := by
  have hfront := Text.cut?_append_left (by decide) (fun _ => arrow_after_name hname) hcut
  have hvisible : Text.StartsVisible (name ++ ": ") := by
    simpa using visible_name hname ""
  have hcolon : Text.cut? ": " (name ++ ": " ++ Text.trim before) = some (name, Text.trim before) :=
    Text.cut?_append (c := ':') (by decide) (notMem_name hname (by decide)) _
  have hempty : (name ++ ": " ++ Text.trim before).isEmpty = false := by simp
  have hcomma : Text.contains ", " (name ++ ": " ++ Text.trim before) =
      Text.contains ", " (Text.trim before) := contains_after_name hname (by decide) _
  rw [emittedType, Text.dropFront?_append, Option.bind_some, hfront]
  simp only [hvisible.trim_append hbefore, hempty, Bool.false_eq_true, if_false, hcolon, hcomma,
    shown]

/-- A parameter with an arrow in its type is read up to there. -/
theorem emittedType_of_arrow (hname : isIdentifier name) (htype : Opens type)
    (hcut : Text.cut? ") =>" type = some (before, after)) (rest : String) :
    emittedType ("(" ++ (name ++ ": " ++ (type ++ rest))) = shown (Text.trim before) :=
  emittedType_of_cut hname (Text.cut?_append_right (by decide) hcut rest)
    (visible_type (opens_before htype hcut))

/-- The only parameter is read as a whole, if there is no arrow in its type. -/
theorem emittedType_one (hname : isIdentifier name) (htype : Framed type)
    (harrow : ¬ ") =>".toList <:+: type.toList) (last : String) :
    emittedType ("(" ++ (name ++ ": " ++ (type ++ (") =>" ++ last)))) = shown type := by
  have hchars : type.toList ++ ") =>".toList.dropLast = type.toList ++ [')'] ++ [' '] ++ ['='] := by
    simp
  have hcut : Text.cut? ") =>" (type ++ (") =>" ++ last)) = some (type, last) := by
    rw [Text.cut?_eq_some_iff (by decide), hchars]
    refine ⟨String.append_assoc.symm, ?_⟩
    iterate 3 rw [Text.infix_concat_iff_of_getLast?_ne (by decide)]
    exact harrow
  rw [emittedType_of_cut hname hcut (visible_type htype.opens), trim_type htype]

/-- Several parameters are not told apart, if there is no arrow in the type of the first. -/
theorem emittedType_several {name' rest : String} (hname : isIdentifier name)
    (hname' : isIdentifier name') (htype : Opens type)
    (harrow : ¬ ") =>".toList <:+: type.toList) (hrest : ") =>".toList <:+: rest.toList) :
    emittedType ("(" ++ (name ++ ": " ++ (type ++ ", " ++ (name' ++ ": ") ++ rest))) =
      "unknown[]" := by
  have hfront : ∀ more, ") =>".toList <:+: (type ++ ", " ++ (name' ++ ": ")).toList ++ more →
      ") =>".toList <:+: more := by
    intro more hpart
    have hchars : (type ++ ", " ++ (name' ++ ": ")).toList ++ more =
        type.toList ++ ',' :: ' ' :: ((name' ++ ": ").toList ++ more) := by simp
    rw [hchars, Text.infix_append_cons_iff (by decide), or_iff_right harrow,
      Text.infix_cons_iff_of_head?_ne (by decide)] at hpart
    exact arrow_after_name hname' hpart
  cases hlater : Text.cut? ") =>" rest with
  | none => exact absurd hrest (Text.cut?_eq_none_iff.1 hlater)
  | some found =>
    obtain ⟨before, after⟩ := found
    have hvisible : Text.StartsVisible (type ++ ", ") := (visible_type htype).append ", "
    have htrim : Text.trim (type ++ ", " ++ (name' ++ ": ") ++ before) =
        type ++ ", " ++ Text.trim (name' ++ ": " ++ before) := by
      rw [String.append_assoc, hvisible.trim_append (visible_name hname' before)]
    have hcomma : Text.contains ", " (type ++ ", " ++ Text.trim (name' ++ ": " ++ before)) := by
      rw [Text.contains_iff]
      exact (Text.infix_append_right type ", ").trans (Text.infix_append_left _ _)
    rw [emittedType_of_cut hname (Text.cut?_append_left (by decide) hfront hlater)
      ((hvisible.append _).append before), htrim, shown, if_pos hcomma]

/-! ## When it is the type of the parameter -/

theorem shown_eq_self_iff : shown type = type ↔ ¬ Text.contains ", " type := by
  unfold shown
  split
  · next hcomma =>
    refine iff_of_false ?_ (not_not_intro hcomma)
    rintro rfl
    revert hcomma
    decide
  · next hcomma => exact iff_of_true rfl hcomma

/-- What is read up to an arrow is not the whole type. -/
theorem shown_ne_of_arrow (htype : Opens type)
    (hcut : Text.cut? ") =>" type = some (before, after)) : shown (Text.trim before) ≠ type := by
  have hvisible := visible_type (opens_before htype hcut)
  have harrow : ") =>".toList <:+: type.toList := by
    rw [← Text.contains_iff, ← Text.isSome_cut?, hcut]
    rfl
  obtain ⟨-, hfirst⟩ := (Text.cut?_eq_some_iff (by decide)).1 hcut
  intro heq
  rw [← heq, shown] at harrow
  split at harrow
  · revert harrow
    decide
  · exact hfirst ((harrow.trans hvisible.trim_isPrefix.isInfix).trans
      (List.prefix_append _ _).isInfix)

theorem shown_eq_unknown_iff (hbefore : Opens before) :
    shown (Text.trim before) = "unknown[]" ↔ Text.contains ", " (Text.trim before) := by
  unfold shown
  split
  · next hcomma => exact iff_of_true rfl hcomma
  · next hcomma =>
    refine iff_of_false (fun heq => ?_) hcomma
    obtain ⟨rest, hrest⟩ := (visible_type hbefore).trim_isPrefix
    obtain ⟨c, hc, -, hne⟩ := hbefore
    rw [← hrest, heq] at hc
    cases hc
    exact hne (by decide)

/-- What is emitted for a callback with given parameters. -/
structure Emits (hint : String) (params : List (String × TypeDescriptor)) (emitted : String) :
    Prop where
  /-- Nothing, if there is no parameter. -/
  none : params = [] → emitted = "void"
  /-- The type of the only parameter, just if nothing in it brings a comma or an arrow. -/
  one : ∀ p, params = [p] → ∃ type, (Platform.angular.types.map p.2 hint).result = .ok type ∧
    (emitted = type ↔ ∀ mark ∈ marks, ¬ Carries mark p.2)
  /-- An array for several parameters, just if there is a comma in front of the first arrow in the
  type of the first one, or no arrow; so if nothing in it brings an arrow. -/
  several : ∀ p q more, params = p :: q :: more →
    ∃ type, (Platform.angular.types.map p.2 hint).result = .ok type ∧
      (emitted = "unknown[]" ↔ ∀ before after, Text.cut? ") =>" type = some (before, after) →
        Text.contains ", " (Text.trim before)) ∧
      (¬ Carries ") =>" p.2 → emitted = "unknown[]")

theorem emittedType_none (last : String) : emittedType ("(" ++ (") =>" ++ last)) = "void" := by
  have hcut : Text.cut? ") =>" (") =>" ++ last) = some ("", last) := by
    rw [Text.cut?_eq_some_iff (by decide)]
    exact ⟨by simp, by decide⟩
  rw [emittedType, Text.dropFront?_append, Option.bind_some, hcut]
  rfl

section
variable {hint : String} {p q : String × TypeDescriptor} {more : List (String × TypeDescriptor)}

theorem emits_one (hname : isIdentifier p.1) (htype : TypeScript.type .angular p.2 = .ok type)
    (last : String) :
    Emits hint [p] (emittedType ("(" ++ (p.1 ++ ": " ++ (type ++ (") =>" ++ last))))) where
  none := nofun
  one := by
    rintro _ ⟨⟩
    refine ⟨type, htype, ?_⟩
    have hframed := framed_type htype
    have hmarks : (∀ mark ∈ marks, ¬ Carries mark p.2) ↔
        ¬ Text.contains ", " type ∧ ¬ Text.contains ") =>" type := by
      rw [contains_type_iff (by decide) htype, contains_type_iff (by decide) htype]
      simp [marks]
    rw [hmarks, ← Text.isSome_cut? ") =>"]
    cases hcut : Text.cut? ") =>" type with
    | none =>
      rw [emittedType_one hname hframed (Text.cut?_eq_none_iff.1 hcut), shown_eq_self_iff]
      simp
    | some found =>
      obtain ⟨before, after⟩ := found
      rw [emittedType_of_arrow hname hframed.opens hcut]
      exact iff_of_false (shown_ne_of_arrow hframed.opens hcut) fun hnone => hnone.2 rfl
  several := nofun

theorem emits_several {rest : String} (hname : isIdentifier p.1) (hname' : isIdentifier q.1)
    (htype : TypeScript.type .angular p.2 = .ok type) (hrest : ") =>".toList <:+: rest.toList) :
    Emits hint (p :: q :: more)
      (emittedType ("(" ++ (p.1 ++ ": " ++ (type ++ ", " ++ (q.1 ++ ": ") ++ rest)))) where
  none := nofun
  one := nofun
  several := by
    rintro _ _ _ ⟨⟩
    refine ⟨type, htype, ?_⟩
    have hopens := (framed_type htype).opens
    have hemitted : ¬ ") =>".toList <:+: type.toList → _ := fun harrow =>
      emittedType_several hname hname' hopens harrow hrest
    constructor
    · cases hcut : Text.cut? ") =>" type with
      | none =>
        exact iff_of_true (hemitted (Text.cut?_eq_none_iff.1 hcut)) nofun
      | some found =>
        obtain ⟨before, after⟩ := found
        have hparts : type ++ ", " ++ (q.1 ++ ": ") ++ rest =
            type ++ (", " ++ (q.1 ++ ": ") ++ rest) := by simp only [String.append_assoc]
        rw [hparts, emittedType_of_arrow hname hopens hcut,
          shown_eq_unknown_iff (opens_before hopens hcut)]
        constructor
        · rintro hcomma _ _ ⟨⟩
          exact hcomma
        · exact fun hall => hall before after rfl
    · intro hcarries
      refine hemitted fun harrow => hcarries ?_
      exact carries_of_isInfix (by decide) htype harrow

/-- **The output of a callback emits the type of its only parameter**, if nothing in that type has a
comma or an arrow. -/
theorem emittedType_of_callback {d : TypeDescriptor} {text : String} (hcallback : d.isCallback)
    (hnames : ∀ name ∈ d.paramNames, isIdentifier name)
    (h : (Platform.angular.types.map d hint).result = .ok text) :
    Emits hint d.params (emittedType text) := by
  obtain ⟨parts, rest, hparts, rfl⟩ := callback_inversion (f := .angular) hcallback h
  rw [TypeDescriptor.paramNames_eq] at hnames
  generalize d.params = params at hparts hnames ⊢
  cases hparts with
  | nil =>
    have htext : Text.join ", " [] ++ (") =>" ++ rest) = ") =>" ++ rest := String.empty_append
    rw [htext]
    exact ⟨fun _ => emittedType_none rest, nofun, nofun⟩
  | @cons p field params fields hfield hfields =>
    obtain ⟨type, htype, rfl⟩ := hfield
    have hname : isIdentifier p.1 := hnames _ (by simp)
    cases hfields with
    | nil =>
      have htext : Text.join ", " [p.1 ++ ": " ++ type] ++ (") =>" ++ rest) =
          p.1 ++ ": " ++ (type ++ (") =>" ++ rest)) := by
        have hone : Text.join ", " [p.1 ++ ": " ++ type] = p.1 ++ ": " ++ type := by
          simp [Text.join]
        rw [hone, String.append_assoc]
      rw [htext]
      exact emits_one hname htype rest
    | @cons q field' params fields hfield' _ =>
      obtain ⟨type', -, rfl⟩ := hfield'
      obtain ⟨more, hmore⟩ := Text.exists_join_cons ", " (q.1 ++ ": " ++ type') fields
      have hname' : isIdentifier q.1 := hnames _ (by simp)
      have htext : p.1 ++ ": " ++ type ++ ", " ++ (q.1 ++ ": " ++ type' ++ more) ++
          (") =>" ++ rest) = p.1 ++ ": " ++ (type ++ ", " ++ (q.1 ++ ": ") ++
            (type' ++ more ++ (") =>" ++ rest))) := by simp only [String.append_assoc]
      rw [Text.join_cons_cons, hmore, htext]
      refine emits_several hname hname' htype ?_
      exact (Text.infix_append_left ") =>" rest).trans (Text.infix_append_right _ _)

end

/-- A callback for the keys of what was selected. -/
def onSelect : TypeDescriptor :=
  .signed .function [("keys", .array (.primitive .string none) none none false)] none

/-- The keys are emitted, as a list. -/
theorem emittedType_of_callback_onSelect :
    (Platform.angular.types.map onSelect "OnSelect").result = .ok "(keys: string[]) => void" ∧
      emittedType "(keys: string[]) => void" = "string[]" := by
  have h : (Platform.angular.types.map onSelect "OnSelect").result =
      .ok "(keys: string[]) => void" := by decide
  have hemits := emittedType_of_callback (d := onSelect) rfl (by decide) h
  obtain ⟨type, htype, hemitted⟩ := hemits.one _ rfl
  obtain rfl : "string[]" = type := Except.ok.inj htype
  refine ⟨h, hemitted.2 fun mark hmark hcarries => ?_⟩
  have hall : ∀ mark ∈ marks, Text.contains mark "string[]" = false := by decide
  have hcontains := (contains_type_iff hmark htype).2 hcarries
  rw [hall mark hmark] at hcontains
  cases hcontains

/-- A callback for a way to write values as texts. -/
def onFormat : TypeDescriptor :=
  .signed .function [("format", .signed .function [("value", .primitive .string none)]
    (some (.primitive .string none)))] none

/-- The arrow of the parameter is taken for that of the callback, and the type that is emitted ends
there. -/
theorem emittedType_of_callback_onFormat : onFormat.isCallback ∧
    (∀ name ∈ onFormat.paramNames, isIdentifier name) ∧ ∃ p, onFormat.params = [p] ∧
      (Platform.angular.types.map onFormat "OnFormat").result =
        .ok "(format: (value: string) => string) => void" ∧
      (Platform.angular.types.map p.2 "OnFormat").result = .ok "(value: string) => string" ∧
      emittedType "(format: (value: string) => string) => void" = "(value: string" ∧
      "(value: string" ≠ "(value: string) => string" :=
  ⟨rfl, by decide, _, rfl, by decide, by decide, by decide, by decide⟩

end DesignSystem.Angular
