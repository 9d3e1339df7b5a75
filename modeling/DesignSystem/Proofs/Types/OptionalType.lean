import DesignSystem.Proofs.Component.Model
import DesignSystem.Proofs.Reading.TypeExpr
import DesignSystem.Proofs.Types.NominalReading
import DesignSystem.Proofs.Types.TypeScriptReading

/-!
# Types of props that may be left out

* `TypeScript.read_optional`, `Arrowed.read_optional`, `Dart.read_optional`: what each language makes
  of the mark for an optional type.
* `TypeScript.opensCallback_iff`: the types that start with a callback are those of callbacks.
* `Platform.optionalType_read`: the mark is of the whole type, except behind a callback in TypeScript,
  where it is of the callback's result.
-/

set_option autoImplicit false

namespace DesignSystem

open Reading

/-! ## Reading the mark -/

theorem Reading.Arrowed.read_optional {text : String} {t : TypeExpr} (h : Arrowed.read text = some t) :
    Arrowed.read (if Text.contains "->" text then "(" ++ text ++ ")?" else text ++ "?") =
      some (.optional t) := by
  obtain ⟨ts, htrees, hread⟩ := Option.bind_eq_some_iff.1 h
  have hspells := spells_of_trees? htrees
  have hmark : Spells "?" [.mark .question] := spells_of_trees? rfl
  split
  · have htext : "(" ++ text ++ ")?" = "(" ++ text ++ ")" ++ "?" := by
      simp only [String.append_assoc]
      rfl
    rw [htext, Arrowed.read, trees?_eq_iff.2 (hspells.enclosed.append hmark rfl)]
    change (readFrom ts).bind (readRest · [.mark .question]) = _
    rw [hread]
    rfl
  · next hplain =>
    have harrow : .arrow .thin ∉ ts := by
      intro hmem
      exact hplain ((Text.contains_iff _ _).2 (mem_arrow htrees hmem))
    rw [Arrowed.read, trees?_eq_iff.2 (hspells.append hmark rfl)]
    exact readFrom_question hread harrow

theorem Reading.Dart.read_optional {text : String} {t : TypeExpr} (h : Dart.read text = some t) :
    Dart.read (text ++ "?") = some (.optional t) := by
  obtain ⟨ts, htrees, h⟩ := Option.bind_eq_some_iff.1 h
  obtain ⟨⟨t, name⟩, hread, h⟩ := Option.bind_eq_some_iff.1 h
  obtain ⟨rfl, rfl⟩ : name = none ∧ t = _ := by
    cases name with
    | none =>
      cases h
      exact ⟨rfl, rfl⟩
    | some name => cases h
  have hmark : Spells "?" [.mark .question] := spells_of_trees? rfl
  rw [Dart.read, trees?_eq_iff.2 ((spells_of_trees? htrees).append hmark rfl)]
  change (readFrom (ts ++ [.mark .question])).bind _ = _
  rw [readFrom_append hread]
  rfl

namespace Reading.TypeScript

/-- A text starts with a callback that is not in parentheses. -/
def TextOpensCallback (text : String) : Prop := ∃ ts, trees? text = some ts ∧ OpensCallback ts

theorem read_optional {text : String} {t : TypeExpr} (h : read text = some t) :
    ∃ t', read (text ++ " | undefined") = some t' ∧
      (¬ TextOpensCallback text → t.WithUndefined t') ∧
      (TextOpensCallback text → t.ResultTakesUndefined t') := by
  obtain ⟨ts, htrees, hread⟩ := Option.bind_eq_some_iff.1 h
  have hmark : Spells " | undefined" [.mark .bar, .word "undefined"] := spells_of_trees? rfl
  have hmore : read (text ++ " | undefined") = readFrom [] (ts ++ [.mark .bar, .word "undefined"]) := by
    rw [read, trees?_eq_iff.2 ((spells_of_trees? htrees).append hmark rfl)]
    rfl
  rw [hmore]
  by_cases hopens : OpensCallback ts
  · obtain ⟨t', hread', ht⟩ := readFrom_opened ts hread hopens
    exact ⟨t', hread', fun hnot => absurd ⟨ts, htrees, hopens⟩ hnot, fun _ => ht⟩
  · obtain ⟨t', hread', ht⟩ := readFrom_takesUndefined ts [] hread (.inr hopens)
    refine ⟨t', hread', fun _ => ht, ?_⟩
    rintro ⟨us, hus, hus_opens⟩
    cases htrees.symm.trans hus
    exact absurd hus_opens hopens

/-- One part of an alternative does not start with a callback. -/
theorem IsOperand.not_opensCallback {ts : List Tree} {t : TypeExpr} (h : IsOperand ts t) :
    ¬ OpensCallback ts := by
  rintro ⟨params, result, rfl⟩
  -- behind another alternative, it would be read as well
  have hread : readFrom [t] (.group .round params :: .arrow .thick :: result ++ []) =
      readRest [t] t [] := h [t] [] (by simp)
  rw [List.append_nil, readFrom, readRest] at hread
  · obtain ⟨last, -, hrest⟩ := Option.bind_eq_some_iff.1 hread
    rw [readRest] at hrest
    cases hrest
    all_goals nofun
  · nofun

theorem anyOf_ne_callback {ts : List TypeExpr} {params : List (Option String × TypeExpr)}
    {result : TypeExpr} (h : ∀ t ∈ ts, ∀ ps r, t ≠ .callback ps r) :
    TypeExpr.anyOf ts ≠ .callback params result := by
  match ts with
  | [] => nofun
  | [t] => exact h t List.mem_cons_self _ _
  | t :: u :: ts => nofun

end Reading.TypeScript

namespace TypeScript

open Reading.TypeScript

variable {f : Framework} {d : TypeDescriptor} {text : String}

theorem literalShape_ne_callback (v : Json.Value) (params : List (Option String × TypeExpr))
    (result : TypeExpr) : literalShape v ≠ .callback params result := by
  cases v <;> rintro ⟨⟩

theorem frameworkShape_ne_callback {kind : ComplexType} (hkind : kind ≠ .function)
    (params : List (Option String × TypeExpr)) (result : TypeExpr) :
    f.shape kind ≠ .callback params result := by
  cases kind with
  | function => exact absurd rfl hkind
  | node | element | ref => cases f <;> rintro ⟨⟩
  | date | file => rintro ⟨⟩

/-- What is described is a callback only for callbacks and alternatives. -/
theorem shape_ne_callback (hd : d.isCallback = false) (hunion : ∀ types, d ≠ .union types)
    (params : List (Option String × TypeExpr)) (result : TypeExpr) :
    shape f d ≠ .callback params result := by
  cases d with
  | primitive kind values =>
    cases values with
    | none => rintro ⟨⟩
    | some values =>
      rw [shape]
      exact anyOf_ne_callback (List.forall_mem_map.2 fun v _ => literalShape_ne_callback v)
  | custom kind values =>
    rw [shape]
    cases TypeDescriptor.enumerated? (.custom kind values) with
    | none => rintro ⟨⟩
    | some labels =>
      refine anyOf_ne_callback (List.forall_mem_map.2 fun label _ => ?_)
      rintro _ _ ⟨⟩
  | complex kind =>
    rw [shape]
    refine frameworkShape_ne_callback ?_ _ _
    rintro rfl
    cases hd
  | signed kind _ _ =>
    cases kind with
    | function => cases hd
    | node | element | ref | date | file =>
      rw [shape]
      · exact frameworkShape_ne_callback (by rintro ⟨⟩) _ _
      · rintro ⟨⟩
  | union types => exact absurd rfl (hunion types)
  | array items low high unique =>
    rw [shape]
    rintro ⟨⟩
  | object properties strict =>
    rw [shape, objectShape]
    split_ifs <;> rintro ⟨⟩

/-- Alternatives do not start with a callback, not even if they all have one type. -/
theorem union_not_opens {types : List TypeDescriptor} (hd : (TypeDescriptor.union types).IsLegible)
    (h : type f (.union types) = .ok text) : ¬ TextOpensCallback text := by
  rintro ⟨ts, htrees, hopens⟩
  have hread := (isSaid hd text h).read
  rw [Reading.TypeScript.read, htrees] at hread
  obtain ⟨params, result, hshape⟩ := exists_callback_of_opens hread hopens
  rw [type] at h
  split_ifs at h
  obtain ⟨texts, htexts, h⟩ := bind_eq_ok h
  cases h
  rw [shape, htexts] at hshape
  have hall := all_say (fun d hmem => isSaid fun inner hi => hd inner (.member hmem hi)) htexts
  cases hcommon : commonMember? texts with
  | none =>
    simp only [alternativesShape, Except.toOption, Option.getD, hcommon] at hshape
    cases hshape
  | some single =>
    -- the one type stands in parentheses if it is a callback
    have htext : union (texts.map group) = group single := by
      rw [union, commonMember?_map group_injective, hcommon]
      rfl
    obtain ⟨t, -, hsays⟩ : ∃ t ∈ shapeAll f types, Says single t :=
      exists_of_forall₂ hall.flip (mem_of_commonMember? hcommon)
    obtain ⟨us, hspells, hoperand⟩ := hsays.group
    rw [htext, trees?_eq_iff.2 hspells] at htrees
    cases htrees
    exact hoperand.not_opensCallback hopens

/-- The types that start with a callback that is not in parentheses are those of callbacks. -/
theorem opensCallback_iff (hd : d.IsLegible) (h : type f d = .ok text) :
    TextOpensCallback text ↔ d.isCallback = true := by
  constructor
  · rintro ⟨ts, htrees, hopens⟩
    by_contra hcallback
    have hread := type_read h hd
    rw [Reading.TypeScript.read, htrees] at hread
    obtain ⟨params, result, hshape⟩ := exists_callback_of_opens hread hopens
    refine shape_ne_callback (Bool.eq_false_iff.2 hcallback) ?_ params result hshape
    rintro types rfl
    exact union_not_opens hd h ⟨ts, htrees, hopens⟩
  · intro hcallback
    cases d with
    | complex kind =>
      cases kind with
      | function =>
        cases h
        have htrees : trees? "() => void" = some [.group .round [[]], .arrow .thick, .word "void"] := rfl
        exact ⟨_, htrees, _, _, rfl⟩
      | node | element | ref | date | file => cases hcallback
    | signed kind params returns =>
      cases kind with
      | function =>
        obtain ⟨parts, ts, hspells, -⟩ := function_spells
          (fun p hp => isSaid fun inner hi => hd inner (.param hp hi)) (hd _ (.self _))
          (fun r hr => isSaid fun inner hi => hd inner (by subst hr; exact .result hi)) h
        exact ⟨_, trees?_eq_iff.2 hspells, parts, ts, rfl⟩
      | node | element | ref | date | file => cases hcallback
    | primitive | custom | union | array | object => cases hcallback

end TypeScript

/-! ## All platforms -/

theorem Reading.TypeExpr.ResultTakesUndefined.not_withUndefined {t t' : TypeExpr}
    (h : t.ResultTakesUndefined t') : ¬ t.WithUndefined t' := by
  -- a callback is one alternative, and with one more it is a union
  have hunion : ∀ {params params' : List (Option String × TypeExpr)} {r r' : TypeExpr},
      ¬ (TypeExpr.callback params r).WithUndefined (.callback params' r') := by
    rintro params params' r r' ⟨_ | ⟨first, _ | ⟨second, rest⟩⟩, hne, ht, ht'⟩
    · exact hne rfl
    · cases ht'
    · cases ht
  cases h with
  | here => exact hunion
  | inner => exact hunion

namespace Platform

/-- Reads a type as the language of a platform does. -/
def readType : Platform → String → Option TypeExpr
  | swiftUI | compose => Arrowed.read
  | flutter => Reading.Dart.read
  | react | vue | angular | svelte | css | tailwind => Reading.TypeScript.read

/-- The second type is the first, which as a whole may be left out. -/
def IsOptional (p : Platform) (t t' : TypeExpr) : Prop :=
  if p.isTypeScript then t.WithUndefined t' else t' = .optional t

/-- The platform's types are TypeScript's, and this one starts with a callback. -/
def OpensCallback (p : Platform) (type : String) : Prop :=
  p.isTypeScript = true ∧ Reading.TypeScript.TextOpensCallback type

/-- The names that are written for a descriptor are identifiers, and the values scalars. -/
def IsLegible (p : Platform) (d : TypeDescriptor) (hint : String) : Prop :=
  if p.isTypeScript then d.IsLegible else isWord hint ∧ d.IsNameable

/-- How a type is read with and without the mark for one that may be left out. -/
structure ReadsOptional (p : Platform) (type : String) (t t' : TypeExpr) : Prop where
  read : p.readType (p.types.optional type) = some t'
  /-- The mark is of the whole type just if it does not follow on a callback in TypeScript. -/
  whole : p.IsOptional t t' ↔ ¬ p.OpensCallback type
  /-- Behind such a callback it is of the result. -/
  result : p.OpensCallback type → t.ResultTakesUndefined t'

variable {p : Platform} {d : TypeDescriptor} {hint type : String} {t : TypeExpr}

theorem exists_readsOptional (h : p.readType type = some t) : ∃ t', p.ReadsOptional type t t' := by
  -- without callbacks to open, the mark is the language's own
  have hmarked : p.isTypeScript = false → p.readType (p.types.optional type) = some (.optional t) →
      ∃ t', p.ReadsOptional type t t' := by
    intro hp hread
    have hnot : ¬ p.OpensCallback type := fun hopens => by simp [hopens.1] at hp
    exact ⟨_, hread, by simp [IsOptional, hp, hnot], fun hopens => absurd hopens hnot⟩
  have hscript : p.isTypeScript = true → p.readType = Reading.TypeScript.read →
      p.types.optional = TypeScript.optional → ∃ t', p.ReadsOptional type t t' := by
    intro hp hreader hoptional
    rw [hreader] at h
    obtain ⟨t', hread, hwhole, hresult⟩ := Reading.TypeScript.read_optional h
    refine ⟨t', by rw [hreader, hoptional]; exact hread, ?_, fun hopens => hresult hopens.2⟩
    rw [IsOptional, if_pos hp, OpensCallback, and_iff_right hp]
    exact ⟨fun ht hopens => (hresult hopens).not_withUndefined ht, hwhole⟩
  cases p with
  | swiftUI | compose => exact hmarked rfl (Arrowed.read_optional h)
  | flutter => exact hmarked rfl (Reading.Dart.read_optional h)
  | react | vue | angular | svelte | css | tailwind => exact hscript rfl rfl rfl

theorem exists_framework (hp : p.isTypeScript = true) :
    ∃ f, p.types = TypeScript.table f ∧ p.readType = Reading.TypeScript.read := by
  cases p with
  | react | vue | angular | svelte | css | tailwind => exact ⟨_, rfl, rfl⟩
  | swiftUI | compose | flutter => cases hp

theorem isSome_readType (h : (p.types.map d hint).result = .ok type) (hd : p.IsLegible d hint) :
    (p.readType type).isSome := by
  have harrowed : Arrowed.Readable type → (Arrowed.read type).isSome := by
    rintro ⟨ts, t, hspells, hread⟩
    rw [Arrowed.read, trees?_eq_iff.2 hspells]
    exact Option.isSome_of_eq_some hread
  cases hp : p.isTypeScript with
  | true =>
    obtain ⟨f, htable, hreader⟩ := exists_framework hp
    rw [IsLegible, if_pos hp] at hd
    rw [htable] at h
    rw [hreader]
    exact Option.isSome_of_eq_some (TypeScript.type_read h hd)
  | false =>
    rw [IsLegible, if_neg (by simp [hp])] at hd
    cases p with
    | swiftUI => exact harrowed (NominalLanguage.map_good keeps_swift hd.2 _ _ hd.1 h)
    | compose => exact harrowed (NominalLanguage.map_good keeps_kotlin hd.2 _ _ hd.1 h)
    | flutter =>
      obtain ⟨ts, t, hspells, hread⟩ := NominalLanguage.map_good keeps_dart hd.2 _ _ hd.1 h
      change (Reading.Dart.read type).isSome
      rw [Reading.Dart.read, trees?_eq_iff.2 hspells]
      change ((Reading.Dart.readFrom ts).bind _).isSome
      rw [hread]
      rfl
    | react | vue | angular | svelte | css | tailwind => cases hp

/-- **A type is made optional as a whole, unless it is a callback in TypeScript.** -/
theorem optionalType_read (h : (p.types.map d hint).result = .ok type) :
    (∀ t, p.readType type = some t → ∃ t', p.ReadsOptional type t t') ∧
      (p.IsLegible d hint → (p.readType type).isSome ∧
        (p.OpensCallback type ↔ p.isTypeScript = true ∧ d.isCallback = true)) := by
  refine ⟨fun t => exists_readsOptional, fun hd => ⟨isSome_readType h hd, and_congr_right fun hp => ?_⟩⟩
  obtain ⟨f, htable, -⟩ := exists_framework hp
  rw [htable] at h
  rw [IsLegible, if_pos hp] at hd
  exact TypeScript.opensCallback_iff hd h

/-- Content in Compose, with the parentheses that keep the mark out of its result. -/
theorem optionalType_read_composable :
    compose.types.map (.complex .node) "Icon" = pure "@Composable () -> Unit" ∧
      compose.readType "(@Composable () -> Unit)?" =
        some (.optional (.annotated "Composable" (.callback [] (.name "Unit")))) := by
  have htrees : trees? "@Composable () -> Unit" = some [.mark .at, .word "Composable",
      .group .round [[]], .arrow .thin, .word "Unit"] := rfl
  have hread : compose.readType "@Composable () -> Unit" =
      some (.annotated "Composable" (.callback [] (.name "Unit"))) := by
    change Arrowed.read _ = _
    rw [Arrowed.read, htrees]
    rfl
  have hmap : (compose.types.map (.complex .node) "Icon").result = .ok "@Composable () -> Unit" := rfl
  obtain ⟨t', ht'⟩ := (optionalType_read hmap).1 _ hread
  refine ⟨rfl, ht'.read.trans (congrArg some ?_)⟩
  exact ht'.whole.2 fun hopens => nomatch hopens.1

/-- A callback in React: the mark is of its result. -/
theorem optionalType_read_pressCallback :
    react.types.map (.complex .function) "OnPress" = pure "() => void" ∧
      react.readType "() => void" = some (.callback [] (.name "void")) ∧
      react.readType (react.types.optional "() => void") =
        some (.callback [] (.union [.name "void", .name "undefined"])) ∧
      ¬ react.IsOptional (.callback [] (.name "void"))
        (.callback [] (.union [.name "void", .name "undefined"])) := by
  have htrees : trees? "() => void" = some [.group .round [[]], .arrow .thick, .word "void"] := rfl
  have hmarked : trees? "() => void | undefined" = some [.group .round [[]], .arrow .thick,
      .word "void", .mark .bar, .word "undefined"] := rfl
  have hread : react.readType "() => void" = some (.callback [] (.name "void")) := by
    change Reading.TypeScript.read _ = _
    rw [Reading.TypeScript.read, htrees]
    rfl
  have hreadMarked : react.readType "() => void | undefined" =
      some (.callback [] (.union [.name "void", .name "undefined"])) := by
    change Reading.TypeScript.read _ = _
    rw [Reading.TypeScript.read, hmarked]
    rfl
  have hresult : TypeExpr.ResultTakesUndefined (.callback [] (.name "void"))
      (.callback [] (.union [.name "void", .name "undefined"])) :=
    .here ⟨[.name "void"], by simp, rfl, rfl⟩
  exact ⟨rfl, hread, hreadMarked, hresult.not_withUndefined⟩

end Platform

end DesignSystem
