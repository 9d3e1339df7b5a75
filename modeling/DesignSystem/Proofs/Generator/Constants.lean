import DesignSystem.Proofs.Token.Symbols

/-!
# Constants of resolved tokens

Native targets declare a constant for each token, and for a token that refers to another one an
alias of that token's constant. Along references the values are equal, so the types are, and an
alias stands for the literal of its own token.

* `assigned_of_target`: a token that refers to another one is an alias, whatever is compared.
* `aliases_of_resolve`: aliases come down to the literals of the tokens.
* `references_agree`: the same for all targets together, stylesheets included.
-/

set_option autoImplicit false

namespace DesignSystem

variable {t : Token.Layers} {flat : FlatTokens} {tok u last : FlatToken}

/-! ## Aliases -/

section
variable {α : Type} [DecidableEq α] (type : Token.Constant → α) (literal : Token.Constant → String)

/-- The token that a token refers to stands in the list and has the same value. -/
theorem target?_of_resolve (h : t.resolve = .ok flat) (htok : tok ∈ flat)
    (hu : flat.target? tok = some u) : u ∈ flat ∧ u.constant = tok.constant := by
  obtain ⟨name, href, hget⟩ := Option.bind_eq_some_iff.1 hu
  obtain ⟨u', hget', -, hvalue, -⟩ := Token.get?_of_reference h htok href
  obtain rfl : u' = u := Option.some.inj (hget'.symm.trans hget)
  refine ⟨((Token.get?_eq_some_iff (Token.nodup_names h)).1 hget).1, ?_⟩
  rw [FlatToken.constant, FlatToken.constant, hvalue]

/-- A token that refers to another one is an alias of it: the types never differ. -/
theorem assigned_of_target (h : t.resolve = .ok flat) (htok : tok ∈ flat)
    (hu : flat.target? tok = some u) : flat.assigned type literal tok = .aliasOf u.ident := by
  obtain ⟨-, hconstant⟩ := target?_of_resolve h htok hu
  rw [FlatTokens.assigned, hu]
  exact if_pos (by rw [hconstant])

theorem assigned_of_raw (h : tok.reference = none) :
    flat.assigned type literal tok = .literal (literal tok.constant) := by
  rw [FlatTokens.assigned, FlatTokens.target?, h]
  rfl

/-- What the constant of an identifier is declared as, in place of the identifier. -/
def FlatTokens.expand (flat : FlatTokens) (assigned : FlatToken → Assigned) : Assigned → Assigned
  | .literal text => .literal text
  | .aliasOf ident =>
    match flat.find? (·.ident = ident) with
    | some u => assigned u
    | none => .aliasOf ident

theorem expand_aliasOf (hidents : (flat.map (·.ident)).Nodup) (assigned : FlatToken → Assigned)
    (hu : u ∈ flat) : flat.expand assigned (.aliasOf u.ident) = assigned u := by
  have hfind : flat.find? (·.ident = u.ident) = some u := by
    cases h : flat.find? (·.ident = u.ident) with
    | none => simpa using List.find?_eq_none.1 h u hu
    | some u' =>
      have hident : u'.ident = u.ident := by simpa using List.find?_some h
      rw [List.inj_on_of_nodup_map hidents (List.mem_of_find?_eq_some h) hu hident]
  rw [FlatTokens.expand, hfind]

theorem iterate_expand_literal (assigned : FlatToken → Assigned) (n : Nat) (text : String) :
    (flat.expand assigned)^[n] (.literal text) = .literal text := by
  induction n with
  | zero => rfl
  | succ n ih => rw [Function.iterate_succ_apply, FlatTokens.expand, ih]

/-- Expanding as often as there are references on the way comes to what its end is assigned. -/
theorem iterate_expand (h : t.resolve = .ok flat) (hidents : (flat.map (·.ident)).Nodup)
    (htok : tok ∈ flat) {n : Nat} (hlast : flat.following n tok = some last) :
    (flat.expand (flat.assigned type literal))^[n] (flat.assigned type literal tok) =
      flat.assigned type literal last := by
  induction n generalizing tok with
  | zero =>
    cases hlast
    rfl
  | succ n ih =>
    obtain ⟨u, hu, hlast⟩ := Option.bind_eq_some_iff.1 hlast
    have hmem := (target?_of_resolve h htok hu).1
    rw [Function.iterate_succ_apply, assigned_of_target type literal h htok hu,
      expand_aliasOf hidents _ hmem, ih hmem hlast]

/-- The constants of some tokens, each of which is assigned an alias or a literal, come down to the
literals of the tokens themselves. -/
structure FlatTokens.Aliases (flat : FlatTokens) (assigned : FlatToken → Assigned)
    (literal : Token.Constant → String) : Prop where
  /-- A token with a reference is an alias of the token that it refers to. -/
  referring : ∀ tok ∈ flat, ∀ name, tok.reference = some name →
    ∃ u ∈ flat, flat.target? tok = some u ∧ u.name = name ∧ assigned tok = .aliasOf u.ident
  /-- From token to token aliases lead to the literal of the value. -/
  ends : ∀ tok ∈ flat, ∃ n < flat.length, ∃ last ∈ flat, flat.following n tok = some last ∧
    assigned last = .literal (literal tok.constant)
  /-- Where no two tokens have one identifier, so do the identifiers. -/
  expanded : Token.checkSymbols Token.identifier flat = .ok () → ∀ tok ∈ flat,
    ∃ n < flat.length, ∀ m ≥ n,
      (flat.expand assigned)^[m] (assigned tok) = .literal (literal tok.constant)

theorem aliases_of_resolve (h : t.resolve = .ok flat) :
    flat.Aliases (flat.assigned type literal) literal := by
  -- the end of the way from a token is assigned the literal of the token's value
  have hends : ∀ tok ∈ flat, ∃ n < flat.length, ∃ last ∈ flat, flat.following n tok = some last ∧
      flat.assigned type literal last = .literal (literal tok.constant) := by
    intro tok htok
    obtain ⟨n, hn, last, hlast, hnone, hway⟩ := Token.exists_following h htok
    obtain ⟨w, hw, hwn, hvalue⟩ := hway n (Nat.le_refl n)
    obtain rfl : w = last := Option.some.inj (hwn.symm.trans hlast)
    refine ⟨n, hn, w, hw, hlast, ?_⟩
    rw [assigned_of_raw type literal hnone, FlatToken.constant, hvalue, FlatToken.constant]
  refine ⟨fun tok htok name href => ?_, hends, fun hsymbols tok htok => ?_⟩
  · obtain ⟨u, hget, -⟩ := Token.get?_of_reference h htok href
    obtain ⟨hmem, hname⟩ := (Token.get?_eq_some_iff (Token.nodup_names h)).1 hget
    have hu : flat.target? tok = some u := by
      rw [FlatTokens.target?, href]
      exact hget
    exact ⟨u, hmem, hu, hname, assigned_of_target type literal h htok hu⟩
  · obtain ⟨n, hn, last, -, hlast, hliteral⟩ := hends tok htok
    have hidents : (flat.map (·.ident)).Nodup := Token.checkSymbols_eq_ok_iff.1 hsymbols
    refine ⟨n, hn, fun m hm => ?_⟩
    rw [← Nat.sub_add_cancel hm, Function.iterate_add_apply,
      iterate_expand type literal h hidents htok hlast, hliteral, iterate_expand_literal]

end

/-! ## The targets -/

/-- In the sources for all targets the references of a resolved list come down to the values of its
tokens. -/
theorem Token.references_agree (h : t.resolve = .ok flat) :
    Stylesheet.Declares flat ∧
    flat.Aliases (SwiftUI.assigned flat) SwiftUI.constantLiteral ∧
    flat.Aliases (Flutter.assigned flat) Flutter.constantLiteral ∧
    flat.Aliases (Compose.assigned flat) Compose.constantLiteral ∧
    (∀ tok ∈ flat, ∀ u, flat.target? tok = some u →
      SwiftUI.constantLine flat tok = s!"    public static let {tok.ident} = {u.ident}" ∧
      Flutter.constantLine flat tok =
        s!"  static const {Flutter.constantType u.constant} {tok.ident} = {u.ident};" ∧
      Compose.neededImport? flat tok = none ∧
      -- an alias is as constant as what it stands for
      ∃ keyword ∈ ["const val", "val"],
        Compose.constantLine flat tok = s!"    {keyword} {tok.ident} = {u.ident}" ∧
        Compose.constantLine flat u =
          s!"    {keyword} {u.ident} = {(Compose.assigned flat u).text}") := by
  refine ⟨Stylesheet.declares_of_resolve h, aliases_of_resolve _ _ h, aliases_of_resolve _ _ h,
    aliases_of_resolve _ _ h, fun tok htok u hu => ?_⟩
  obtain ⟨-, hconstant⟩ := target?_of_resolve h htok hu
  have htext : (Assigned.aliasOf u.ident).text = u.ident := rfl
  refine ⟨?_, ?_, ?_, ?_⟩
  · unfold SwiftUI.constantLine SwiftUI.assigned
    rw [assigned_of_target _ _ h htok hu]
  · unfold Flutter.constantLine Flutter.assigned
    rw [assigned_of_target _ _ h htok hu, htext, hconstant]
  · unfold Compose.neededImport? Compose.assigned
    rw [assigned_of_target _ _ h htok hu]
  · refine ⟨if Compose.isCompileTime u.constant then "const val" else "val", ?_, ?_, rfl⟩
    · split <;> simp
    · unfold Compose.constantLine Compose.assigned
      rw [assigned_of_target _ _ h htok hu, htext, hconstant]

/-- The gap is an alias of the section, and that one of the raw value. -/
theorem Token.references_agree_gapLayers : gapLayers.resolve = .ok gapTokens ∧
    Stylesheet.Declares gapTokens ∧ gapTokens.map (Compose.constantLine gapTokens) =
      ["    val spacingMd = 16.dp", "    val spacingSection = spacingMd",
        "    val cardGap = spacingSection"] ∧
    ∀ tok ∈ gapTokens, ∃ n < 3, ∀ m ≥ n, (gapTokens.expand (Compose.assigned gapTokens))^[m]
      (Compose.assigned gapTokens tok) = .literal (Compose.constantLiteral tok.constant) := by
  have h : gapLayers.resolve = .ok gapTokens := by decide +kernel
  obtain ⟨hsheet, -, -, hcompose, -⟩ := references_agree h
  exact ⟨h, hsheet, by decide +kernel, hcompose.expanded rfl⟩

end DesignSystem
