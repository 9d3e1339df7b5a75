import DesignSystem.Generator.Platform
import DesignSystem.Proofs.Stylesheet.CustomProperty
import Mathlib.Data.List.Induction
import Mathlib.Data.Set.Function

/-!
# Clashes of symbols

Before anything is written for a platform, the symbols of the tokens are looked through in order. The
check keeps a table of the symbols that it has met, each with the token that it met it for.

* `symbolClash?_append`: after tokens with distinct symbols the table holds exactly these.
* `exists_firstClash`: if symbols are not distinct, one of them is the first to come again.
* `checkSymbols_eq_ok_iff`, `checkSymbols_eq_error_iff`: when the check passes, and what it reports.
* `symbols_checked`: the check on resolved tokens, and the platforms on which it always passes.
-/

set_option autoImplicit false

namespace DesignSystem.Token

/-- The symbols of some tokens, with the names that have them. -/
def symbolTable (symbol : String → String) (ts : FlatTokens) : Entries String :=
  ts.map fun t => (symbol t.name, t.name)

/-- Of the tokens `before` and the one that follows them, `second` is the first whose symbol was
there before, and `first` the earliest token that has this symbol. -/
structure FirstClash (symbol : String → String) (before : FlatTokens)
    (first second : FlatToken) : Prop where
  distinct : (before.map fun t => symbol t.name).Nodup
  repeats : symbol first.name = symbol second.name
  earliest : ∃ early between, before = early ++ first :: between ∧
    ∀ u ∈ early, symbol u.name ≠ symbol second.name

variable {symbol : String → String} {seen : Entries String} {before ts flat : FlatTokens}
  {first second : FlatToken} {t : Layers}

theorem names_symbolTable : (symbolTable symbol ts).names = ts.map fun t => symbol t.name := by
  simp [symbolTable, Entries.names, Function.comp_def]

/-! ## The check -/

-- The table that the check carries along holds all symbols so far; as long as no symbol comes again,
-- nothing is reported.
theorem symbolClash?_append (h : (seen.names ++ before.map fun t => symbol t.name).Nodup) :
    symbolClash? symbol seen (before ++ ts) =
      symbolClash? symbol (seen ++ symbolTable symbol before) ts := by
  induction before generalizing seen with
  | nil => simp [symbolTable]
  | cons t before ih =>
    have hnew : symbol t.name ∉ seen.names := by
      intro hmem
      exact (List.nodup_append.1 h).2.2 _ hmem _ List.mem_cons_self rfl
    have hrest : (Entries.names (seen ++ [(symbol t.name, t.name)]) ++
        before.map fun t => symbol t.name).Nodup := by
      simpa [Entries.names] using h
    rw [List.cons_append, symbolClash?, Entries.get?_eq_none hnew]
    dsimp only
    rw [ih hrest]
    simp [symbolTable]

theorem symbolClash?_eq_none_of_nodup (h : (ts.map fun t => symbol t.name).Nodup) :
    symbolClash? symbol [] ts = none := by
  have hall : symbolClash? symbol [] (ts ++ []) = symbolClash? symbol ([] ++ symbolTable symbol ts) [] :=
    symbolClash?_append h
  rwa [List.append_nil] at hall

/-- At the first token whose symbol was there before, the check reports it. -/
theorem symbolClash?_of_firstClash (h : FirstClash symbol before first second) :
    symbolClash? symbol [] (before ++ second :: ts) =
      some (.duplicateName (symbol second.name) first.name second.name) := by
  obtain ⟨early, between, hbefore, -⟩ := h.earliest
  have hdistinct : (symbolTable symbol before).Distinct := by
    rw [Entries.Distinct, names_symbolTable]
    exact h.distinct
  have hmem : (symbol second.name, first.name) ∈ symbolTable symbol before := by
    rw [← h.repeats, hbefore]
    simp [symbolTable]
  have hseen : symbolClash? symbol [] (before ++ second :: ts) =
      symbolClash? symbol ([] ++ symbolTable symbol before) (second :: ts) :=
    symbolClash?_append h.distinct
  rw [hseen, List.nil_append, symbolClash?, Entries.get?_of_mem hdistinct hmem]

/-- If symbols are not distinct, one is the first to come again. -/
theorem exists_firstClash (h : ¬ (ts.map fun t => symbol t.name).Nodup) :
    ∃ before first second after, ts = before ++ second :: after ∧
      FirstClash symbol before first second := by
  induction ts using List.reverseRecOn with
  | nil => exact absurd List.nodup_nil h
  | append_singleton ts second ih =>
    by_cases hts : (ts.map fun t => symbol t.name).Nodup
    · have hmem : symbol second.name ∈ ts.map fun t => symbol t.name := by
        by_contra hnew
        refine h ?_
        rw [List.map_append, List.map_singleton, ← List.concat_eq_append]
        exact hts.concat hnew
      obtain ⟨first, hfirst, hrepeats⟩ := List.mem_map.1 hmem
      obtain ⟨early, between, rfl⟩ := List.append_of_mem hfirst
      refine ⟨_, first, second, [], rfl, hts, hrepeats, early, between, rfl, fun u hu hsymbol => ?_⟩
      -- two tokens of one symbol would stand in front of `second`
      rw [List.map_append] at hts
      exact (List.nodup_append.1 hts).2.2 _ (List.mem_map_of_mem hu) _ List.mem_cons_self
        (hsymbol.trans hrepeats.symm)
    · obtain ⟨before, first, second', after, rfl, hclash⟩ := ih hts
      exact ⟨before, first, second', after ++ [second], by simp, hclash⟩

theorem checkSymbols_of_firstClash (h : FirstClash symbol before first second) :
    checkSymbols symbol (before ++ second :: ts) =
      .error (.duplicateName (symbol second.name) first.name second.name) := by
  rw [checkSymbols, symbolClash?_of_firstClash h]

/-- The check passes just if symbols are distinct. -/
theorem checkSymbols_eq_ok_iff :
    checkSymbols symbol ts = .ok () ↔ (ts.map fun t => symbol t.name).Nodup := by
  constructor
  · intro h
    by_contra hrepeated
    obtain ⟨before, first, second, after, rfl, hclash⟩ := exists_firstClash hrepeated
    rw [checkSymbols_of_firstClash hclash] at h
    cases h
  · intro h
    rw [checkSymbols, symbolClash?_eq_none_of_nodup h]

/-- What the check reports is the first token whose symbol was there before. -/
theorem checkSymbols_eq_error_iff {e : ResolveError} : checkSymbols symbol ts = .error e ↔
    ∃ before first second after, ts = before ++ second :: after ∧
      FirstClash symbol before first second ∧
      e = .duplicateName (symbol second.name) first.name second.name := by
  constructor
  · intro h
    have hrepeated : ¬ (ts.map fun t => symbol t.name).Nodup := by
      intro hnodup
      rw [checkSymbols_eq_ok_iff.2 hnodup] at h
      cases h
    obtain ⟨before, first, second, after, rfl, hclash⟩ := exists_firstClash hrepeated
    rw [checkSymbols_of_firstClash hclash] at h
    exact ⟨before, first, second, after, rfl, hclash, (Except.error.inj h).symm⟩
  · rintro ⟨before, first, second, after, rfl, hclash, rfl⟩
    exact checkSymbols_of_firstClash hclash

/-! ## Resolved tokens -/

/-- The platforms on which the symbol of a token is its custom property. -/
def propertyPlatforms : List Platform := [.react, .vue, .svelte, .css, .tailwind]

theorem symbol_injective {p : Platform} (hp : p ∈ propertyPlatforms) :
    Function.Injective p.generator.symbol := by
  have hsymbol : p.generator.symbol = Stylesheet.customProperty := by
    simp only [propertyPlatforms, List.mem_cons, List.not_mem_nil, or_false] at hp
    rcases hp with rfl | rfl | rfl | rfl | rfl <;> rfl
  exact hsymbol ▸ Stylesheet.customProperty_injective

/-- The names of resolved tokens are distinct, so only different names can have one symbol. -/
theorem nodup_symbols_iff (h : t.resolve = .ok flat) :
    (flat.map fun tok => symbol tok.name).Nodup ↔
      Set.InjOn symbol {name | name ∈ flat.map (·.name)} := by
  have hmap : (flat.map fun tok => symbol tok.name) = (flat.map (·.name)).map symbol := by simp
  rw [hmap, List.nodup_map_iff_inj_on (nodup_names h)]
  exact ⟨fun hinj a ha b hb => hinj a ha b hb, fun hinj a ha b hb => hinj ha hb⟩

/-- **The check of symbols is exact, and custom properties never clash.** -/
theorem symbols_checked (h : t.resolve = .ok flat) :
    (∀ g : Generator,
      (checkSymbols g.symbol flat = .ok () ↔
        Set.InjOn g.symbol {name | name ∈ flat.map (·.name)}) ∧
      ∀ e, checkSymbols g.symbol flat = .error e ↔
        ∃ before first second after, flat = before ++ second :: after ∧
          FirstClash g.symbol before first second ∧
          e = .duplicateName (g.symbol second.name) first.name second.name) ∧
    ∀ p ∈ propertyPlatforms, checkSymbols p.generator.symbol flat = .ok () ∧
      ∀ name other, name ≠ other → p.generator.symbol name ≠ p.generator.symbol other := by
  refine ⟨fun g => ⟨?_, fun e => checkSymbols_eq_error_iff⟩, fun p hp => ⟨?_, ?_⟩⟩
  · rw [checkSymbols_eq_ok_iff, nodup_symbols_iff h]
  · rw [checkSymbols_eq_ok_iff, nodup_symbols_iff h]
    exact (symbol_injective hp).injOn
  · exact fun name other hne hsymbol => hne (symbol_injective hp hsymbol)

/-- Two steps of a scale whose names differ in a mark that no identifier has. -/
def fractionLayers : Layers where
  primitive := [("spacing", .group [("0.5", .leaf (.text "2px")), ("1", .leaf (.text "4px")),
    ("0,5", .leaf (.text "3px"))])]

/-- The resolved tokens of `fractionLayers`. -/
def fractionTokens : FlatTokens := [
  ⟨⟨.primitive, ["spacing", "0.5"]⟩, "spacing-0.5", .text "2px", none⟩,
  ⟨⟨.primitive, ["spacing", "1"]⟩, "spacing-1", .text "4px", none⟩,
  ⟨⟨.primitive, ["spacing", "0,5"]⟩, "spacing-0,5", .text "3px", none⟩]

/-- The third token has the constant of the first one, and a property of its own. -/
theorem symbols_checked_fractionLayers : fractionLayers.resolve = .ok fractionTokens ∧
    checkSymbols SwiftUI.generator.symbol fractionTokens =
      .error (.duplicateName "spacing0_5" "spacing-0.5" "spacing-0,5") ∧
    ¬ Set.InjOn SwiftUI.generator.symbol {name | name ∈ fractionTokens.map (·.name)} ∧
    checkSymbols Css.generator.symbol fractionTokens = .ok () := by
  have h : fractionLayers.resolve = .ok fractionTokens := by decide +kernel
  obtain ⟨hchecks, hproperties⟩ := symbols_checked h
  have hclash : FirstClash SwiftUI.generator.symbol (fractionTokens.take 2) fractionTokens[0]
      fractionTokens[2] :=
    ⟨by decide +kernel, by decide +kernel, [], [fractionTokens[1]], rfl, nofun⟩
  have herror : checkSymbols SwiftUI.generator.symbol fractionTokens =
      .error (.duplicateName "spacing0_5" "spacing-0.5" "spacing-0,5") :=
    ((hchecks SwiftUI.generator).2 _).2 ⟨_, _, _, [], rfl, hclash, by decide +kernel⟩
  refine ⟨h, herror, fun hinj => ?_, (hproperties .css (by decide)).1⟩
  rw [(hchecks SwiftUI.generator).1.2 hinj] at herror
  cases herror

end DesignSystem.Token
