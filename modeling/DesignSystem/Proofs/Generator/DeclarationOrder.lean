import DesignSystem.Generator.Angular
import DesignSystem.Proofs.Generator.Constants

/-!
# The order of declarations

Sass variables and the properties of a Kotlin object get their values from top to bottom, so what
one of them is assigned has to be declared above it. The files list the tokens in flattening order,
in which a reference may just as well lead to a later token.

* `declarationOrder_eq`: taking the tokens layer by layer leaves flattening order as it is.
* `pointsBack_iff`: which references lead to earlier tokens, said of the trees.
* `pointsBack_of_layers`: a reference to an earlier layer does.
* `declared_first`: what is used is declared above exactly where references lead back.
-/

set_option autoImplicit false

namespace DesignSystem

/-- Declarations from top to bottom, each with its symbol and the symbols that it uses: every use
stands below the declaration of its symbol. -/
def FlatTokens.DeclaresFirst (ts : FlatTokens) (symbol : FlatToken → String)
    (uses : FlatToken → String → Prop) : Prop :=
  ∀ before tok after, ts = before ++ tok :: after → ∀ s, uses tok s → ∃ u ∈ before, symbol u = s

/-- The variables of the Sass file are declared above their uses. -/
def Angular.DeclaresFirst (flat : FlatTokens) : Prop :=
  FlatTokens.DeclaresFirst (declarationOrder flat) (sassVariable ·.name) fun tok s =>
    variableValue tok = .aliasOf s

/-- The constants of the Kotlin object are declared above the aliases that are computed when the
object is made. -/
def Compose.DeclaresFirst (flat : FlatTokens) : Prop :=
  flat.DeclaresFirst (·.ident) fun tok s =>
    isCompileTime tok.constant = false ∧ assigned flat tok = .aliasOf s

/-- Where one of some tokens refers to another token, that one stands before it. -/
def FlatTokens.PointsBack (flat : FlatTokens) (among : FlatToken → Prop) : Prop :=
  ∀ tok ∈ flat, among tok → ∀ u, flat.target? tok = some u → [u, tok].Sublist flat

variable {t : Token.Layers} {flat : FlatTokens} {tok u : FlatToken}

/-! ## Flattening order -/

/-- What stands before the only place of `b` in a list is in the part before that place. -/
theorem mem_of_sublist_append {α : Type} {a b : α} {before after : List α}
    (h : [a, b].Sublist (before ++ b :: after)) (hnodup : (before ++ b :: after).Nodup) :
    a ∈ before := by
  obtain ⟨hbefore, hrest, hapart⟩ := List.nodup_append.1 hnodup
  have hb : b ∉ after := (List.nodup_cons.1 hrest).1
  obtain ⟨l₁, l₂, heq, h₁, h₂⟩ := List.sublist_append_iff.1 h
  rcases l₁ with _ | ⟨x, l₁⟩
  · -- then `b` would stand twice in the second part
    rw [List.nil_append] at heq
    subst heq
    cases h₂ with
    | cons _ h₂ => exact absurd (h₂.subset (.tail _ List.mem_cons_self)) hb
    | cons_cons _ h₂ => exact absurd (h₂.subset List.mem_cons_self) hb
  · obtain ⟨rfl, -⟩ := List.cons.inj heq
    exact h₁.subset List.mem_cons_self

namespace Token

theorem Layer.not_before_of_before {a b : Layer} (h : [a, b].Sublist all) :
    ¬ ([b, a].Sublist all ∨ b = a) := by
  revert h
  cases a <;> cases b <;> decide

theorem map_place (h : t.resolve = .ok flat) : flat.map (·.place) = t.leaves.map (·.1) :=
  (map_eq_map_of_forall₂ (forall₂_resolves h) fun _ _ hres => hres.place.symm).symm

/-- A resolved list begins with the primitive layer and ends with the component layer. -/
theorem pairwise_layer (h : t.resolve = .ok flat) : flat.Pairwise fun a b =>
    [a.place.layer, b.place.layer].Sublist Layer.all ∨ a.place.layer = b.place.layer := by
  have hleaves : (t.leaves.map (·.1)).Pairwise t.Earlier :=
    List.pairwise_map.2 (layers_leaves_pairwise t)
  rw [← map_place h, List.pairwise_map] at hleaves
  exact hleaves.imp fun hab => hab.imp id And.left

theorem nodup_of_resolve (h : t.resolve = .ok flat) : flat.Nodup := (nodup_places h).of_map _

end Token

theorem Angular.declarationOrder_of_pairwise : ∀ {ts : FlatTokens}, (ts.Pairwise fun a b =>
    [a.place.layer, b.place.layer].Sublist Token.Layer.all ∨ a.place.layer = b.place.layer) →
      Angular.declarationOrder ts = ts
  | [], _ => rfl
  | tok :: ts, h => by
    obtain ⟨hhead, htail⟩ := List.pairwise_cons.1 h
    have ih := Angular.declarationOrder_of_pairwise htail
    simp only [Angular.declarationOrder, Token.Layer.all, List.flatMap_cons, List.flatMap_nil,
      List.append_nil, FlatTokens.ofLayer] at ih ⊢
    -- no later token is of a layer before that of the first one
    have hnone : ∀ layer, (¬ [tok.place.layer, layer].Sublist Token.Layer.all) →
        tok.place.layer ≠ layer → ts.filter (·.place.layer = layer) = [] := by
      intro layer hsub hne
      refine List.filter_eq_nil_iff.2 fun x hx => ?_
      rintro hlayer
      obtain rfl : x.place.layer = layer := by simpa using hlayer
      exact (hhead x hx).elim hsub hne
    cases hl : tok.place.layer with
    | primitive => simpa [hl] using ih
    | semantic =>
      rw [hl] at hnone
      have hprimitive := hnone .primitive (by decide) (by decide)
      rw [hprimitive] at ih
      simpa [hl, hprimitive] using ih
    | component =>
      rw [hl] at hnone
      have hprimitive := hnone .primitive (by decide) (by decide)
      have hsemantic := hnone .semantic (by decide) (by decide)
      rw [hprimitive, hsemantic] at ih
      simpa [hl, hprimitive, hsemantic] using ih

/-- Taking the tokens of a resolved list layer by layer leaves them in their order. -/
theorem Angular.declarationOrder_eq (h : t.resolve = .ok flat) : declarationOrder flat = flat :=
  Angular.declarationOrder_of_pairwise (Token.pairwise_layer h)

/-! ## References that lead back -/

theorem FlatTokens.DeclaresFirst.of_pointsBack {symbol : FlatToken → String}
    {uses : FlatToken → String → Prop} {among : FlatToken → Prop} (hnodup : flat.Nodup)
    (huses : ∀ tok ∈ flat, ∀ s, uses tok s →
      among tok ∧ ∃ u, flat.target? tok = some u ∧ symbol u = s)
    (h : flat.PointsBack among) : flat.DeclaresFirst symbol uses := by
  rintro before tok after rfl s hs
  have htok : tok ∈ before ++ tok :: after := List.mem_append_right _ List.mem_cons_self
  obtain ⟨hamong, u, hu, hsymbol⟩ := huses tok htok s hs
  exact ⟨u, mem_of_sublist_append (h tok htok hamong u hu) hnodup, hsymbol⟩

theorem FlatTokens.DeclaresFirst.pointsBack {symbol : FlatToken → String}
    {uses : FlatToken → String → Prop} {among : FlatToken → Prop}
    (hsymbols : (flat.map symbol).Nodup)
    (huses : ∀ tok ∈ flat, among tok → ∀ u, flat.target? tok = some u →
      u ∈ flat ∧ uses tok (symbol u))
    (h : flat.DeclaresFirst symbol uses) : flat.PointsBack among := by
  intro tok htok hamong u hu
  obtain ⟨hmem, huse⟩ := huses tok htok hamong u hu
  obtain ⟨before, after, rfl⟩ := List.append_of_mem htok
  obtain ⟨u', hu', hsymbol⟩ := h before tok after rfl _ huse
  -- the symbol that is declared above is that of no other token
  obtain rfl : u' = u :=
    List.inj_on_of_nodup_map hsymbols (List.mem_append_left _ hu') hmem hsymbol
  exact (List.singleton_sublist.2 hu').append (List.singleton_sublist.2 List.mem_cons_self)

namespace Token

/-- The token that a token refers to is that of the leaf which the reference finds. -/
theorem target?_eq_some_iff (h : t.resolve = .ok flat) (htok : tok ∈ flat) :
    flat.target? tok = some u ↔ u ∈ flat ∧
      ∃ target, (tok.place, .reference target) ∈ t.leaves ∧ t.Locates tok.place target u.place := by
  constructor
  · intro hu
    obtain ⟨name, href, hget⟩ := Option.bind_eq_some_iff.1 hu
    obtain ⟨u', hget', -, -, hfound⟩ := get?_of_reference h htok href
    obtain rfl : u' = u := Option.some.inj (hget'.symm.trans hget)
    exact ⟨((get?_eq_some_iff (nodup_names h)).1 hget).1, hfound⟩
  · rintro ⟨hu, target, hleaf, hq⟩
    obtain ⟨⟨p, v⟩, hx, hres⟩ := exists_resolves h htok
    obtain rfl : tok.place = p := hres.place
    -- no two leaves stand at one place
    have hplaces : (t.leaves.map (·.1)).Nodup := map_place h ▸ nodup_places h
    obtain rfl : v = .reference target :=
      congrArg Prod.snd (List.inj_on_of_nodup_map hplaces hx hleaf rfl)
    obtain ⟨w, hw⟩ := hq.exists_lookup
    obtain ⟨u', hu', hresu, href, -⟩ := exists_target h (.step hq hw) hres
    obtain rfl : u' = u := List.inj_on_of_nodup_map (nodup_places h) hu' hu hresu.place
    exact target?_eq_some h hu href

/-- A reference in a list leads back exactly where the reference of its leaf finds a leaf that
flattening comes to earlier. -/
theorem pointsBack_iff (h : t.resolve = .ok flat) (among : FlatToken → Prop) :
    flat.PointsBack among ↔ ∀ tok ∈ flat, among tok → ∀ target q,
      (tok.place, .reference target) ∈ t.leaves → t.Locates tok.place target q →
        [q, tok.place].Sublist (t.leaves.map (·.1)) := by
  rw [← map_place h]
  constructor
  · intro hback tok htok hamong target q hleaf hq
    obtain ⟨w, hw⟩ := hq.exists_lookup
    obtain ⟨u, hu, hres⟩ :=
      exists_of_forall₂ (forall₂_resolves h).flip (mem_leaves_of_lookup hw)
    obtain rfl : u.place = q := hres.place
    exact (hback tok htok hamong u ((target?_eq_some_iff h htok).2 ⟨hu, target, hleaf, hq⟩)).map _
  · intro hback tok htok hamong u hu
    obtain ⟨hmem, target, hleaf, hq⟩ := (target?_eq_some_iff h htok).1 hu
    obtain ⟨l, hl, heq⟩ := List.sublist_map_iff.1 (hback tok htok hamong target u.place hleaf hq)
    obtain ⟨u', l, rfl, hu', heq⟩ := List.map_eq_cons_iff.1 heq.symm
    obtain ⟨tok', rfl, htok'⟩ := List.map_eq_singleton_iff.1 heq
    -- at the places of the two tokens stand no other ones
    obtain rfl : u' = u :=
      List.inj_on_of_nodup_map (nodup_places h) (hl.subset List.mem_cons_self) hmem hu'
    obtain rfl : tok' = tok :=
      List.inj_on_of_nodup_map (nodup_places h) (hl.subset (.tail _ List.mem_cons_self)) htok htok'
    exact hl

/-- References to tokens of earlier layers lead back. -/
theorem pointsBack_of_layers (h : t.resolve = .ok flat) {among : FlatToken → Prop}
    (hlayers : ∀ tok ∈ flat, among tok → ∀ u, flat.target? tok = some u →
      [u.place.layer, tok.place.layer].Sublist Layer.all) : flat.PointsBack among := by
  intro tok htok hamong u hu
  have hlayer := hlayers tok htok hamong u hu
  have hmem := ((target?_eq_some_iff h htok).1 hu).1
  have horder := pairwise_layer h
  obtain ⟨before, after, rfl⟩ := List.append_of_mem htok
  rcases List.mem_append.1 hmem with hbefore | hrest
  · exact (List.singleton_sublist.2 hbefore).append (List.singleton_sublist.2 List.mem_cons_self)
  · -- nothing of an earlier layer stands at the token or behind it
    have hlate : [tok.place.layer, u.place.layer].Sublist Layer.all ∨
        tok.place.layer = u.place.layer := by
      rcases List.mem_cons.1 hrest with rfl | hafter
      · exact .inr rfl
      · exact (List.pairwise_cons.1 (List.pairwise_append.1 horder).2.1).1 u hafter
    exact absurd hlate (Layer.not_before_of_before hlayer)

end Token

/-! ## The files -/

theorem Angular.variableValue_of_target (hu : flat.target? tok = some u) :
    variableValue tok = .aliasOf (sassVariable u.name) := by
  obtain ⟨name, href, hget⟩ := Option.bind_eq_some_iff.1 hu
  have hname : u.name = name := by simpa using List.find?_some hget
  rw [variableValue, href, hname]

theorem Angular.exists_target_of_aliasOf (h : t.resolve = .ok flat) (htok : tok ∈ flat) {s : String}
    (hs : variableValue tok = .aliasOf s) :
    ∃ u, flat.target? tok = some u ∧ sassVariable u.name = s := by
  cases href : tok.reference with
  | none =>
    rw [variableValue, href] at hs
    cases hs
  | some name =>
    obtain ⟨u, hget, -⟩ := Token.get?_of_reference h htok href
    have hu : flat.target? tok = some u := by rw [FlatTokens.target?, href]; exact hget
    rw [variableValue_of_target hu] at hs
    exact ⟨u, hu, Assigned.aliasOf.inj hs⟩

theorem Angular.declaresFirst_of_pointsBack (h : t.resolve = .ok flat)
    (hback : flat.PointsBack fun _ => True) : DeclaresFirst flat := by
  unfold DeclaresFirst
  rw [declarationOrder_eq h]
  exact .of_pointsBack (Token.nodup_of_resolve h)
    (fun tok htok s hs => ⟨trivial, exists_target_of_aliasOf h htok hs⟩) hback

theorem Angular.pointsBack_of_declaresFirst (h : t.resolve = .ok flat)
    (hsymbols : Token.checkSymbols sassVariable flat = .ok ()) (hfirst : DeclaresFirst flat) :
    flat.PointsBack fun _ => True := by
  unfold DeclaresFirst at hfirst
  rw [declarationOrder_eq h] at hfirst
  exact hfirst.pointsBack (Token.checkSymbols_eq_ok_iff.1 hsymbols) fun tok htok _ u hu =>
    ⟨(target?_of_resolve h htok hu).1, variableValue_of_target hu⟩

theorem Compose.declaresFirst_of_pointsBack (h : t.resolve = .ok flat)
    (hback : flat.PointsBack fun tok => isCompileTime tok.constant = false) :
    DeclaresFirst flat := by
  refine .of_pointsBack (Token.nodup_of_resolve h) ?_ hback
  rintro tok htok s ⟨hval, hs⟩
  cases hu : flat.target? tok with
  | none =>
    rw [assigned, FlatTokens.assigned, hu] at hs
    cases hs
  | some u =>
    rw [assigned, assigned_of_target _ _ h htok hu] at hs
    exact ⟨hval, u, rfl, Assigned.aliasOf.inj hs⟩

theorem Compose.pointsBack_of_declaresFirst (h : t.resolve = .ok flat)
    (hsymbols : Token.checkSymbols Token.identifier flat = .ok ()) (hfirst : DeclaresFirst flat) :
    flat.PointsBack fun tok => isCompileTime tok.constant = false :=
  hfirst.pointsBack (Token.checkSymbols_eq_ok_iff.1 hsymbols) fun _ htok hval _ hu =>
    ⟨(target?_of_resolve h htok hu).1, hval, assigned_of_target _ _ h htok hu⟩

/-- Where the files of a resolved list declare what they use. -/
structure Token.Layers.DeclarationOrder (t : Layers) (flat : FlatTokens) : Prop where
  /-- A reference leads back where it finds a leaf that flattening comes to earlier. -/
  back : ∀ among, flat.PointsBack among ↔ ∀ tok ∈ flat, among tok → ∀ target q,
    (tok.place, .reference target) ∈ t.leaves → t.Locates tok.place target q →
      [q, tok.place].Sublist (t.leaves.map (·.1))
  /-- One that finds a leaf of an earlier layer does. -/
  layers : ∀ among, (∀ tok ∈ flat, among tok → ∀ u, flat.target? tok = some u →
    [u.place.layer, tok.place.layer].Sublist Layer.all) → flat.PointsBack among
  /-- Where all references lead back, every variable is declared above its uses, and where
  variables are distinct, only there. -/
  sass : (flat.PointsBack (fun _ => True) → Angular.DeclaresFirst flat) ∧
    (checkSymbols Angular.sassVariable flat = .ok () →
      (Angular.DeclaresFirst flat ↔ flat.PointsBack fun _ => True))
  /-- The same of the constants; those that the compiler computes may stand anywhere. -/
  kotlin :
    (flat.PointsBack (fun tok => Compose.isCompileTime tok.constant = false) →
      Compose.DeclaresFirst flat) ∧
    (checkSymbols identifier flat = .ok () →
      (Compose.DeclaresFirst flat ↔
        flat.PointsBack fun tok => Compose.isCompileTime tok.constant = false))

/-- **Files declare first what they use exactly where references lead back.** -/
theorem Token.declared_first (h : t.resolve = .ok flat) : t.DeclarationOrder flat where
  back := pointsBack_iff h
  layers _ := pointsBack_of_layers h
  sass := ⟨Angular.declaresFirst_of_pointsBack h, fun hsymbols =>
    ⟨Angular.pointsBack_of_declaresFirst h hsymbols, Angular.declaresFirst_of_pointsBack h⟩⟩
  kotlin := ⟨Compose.declaresFirst_of_pointsBack h, fun hsymbols =>
    ⟨Compose.pointsBack_of_declaresFirst h hsymbols, Compose.declaresFirst_of_pointsBack h⟩⟩

/-- The references of `gapTokens` lead from layer to earlier layer, so both files are in order. -/
theorem Token.declared_first_gapLayers : gapLayers.resolve = .ok gapTokens ∧
    Angular.variableFile gapTokens =
      "$spacing-md: 1rem;\n$spacing-section: $spacing-md;\n$card-gap: $spacing-section;\n" ∧
    Angular.DeclaresFirst gapTokens ∧ Compose.DeclaresFirst gapTokens := by
  have h : gapLayers.resolve = .ok gapTokens := by decide +kernel
  have horder := declared_first h
  have hlayers : ∀ tok ∈ gapTokens, ∀ u ∈ gapTokens.target? tok,
      [u.place.layer, tok.place.layer].Sublist Layer.all := by decide +kernel
  have hback : ∀ among, gapTokens.PointsBack among := fun among =>
    horder.layers among fun tok htok _ => hlayers tok htok
  exact ⟨h, by decide +kernel, horder.sass.1 (hback _), horder.kotlin.1 (hback _)⟩

/-- A gap that refers to the size behind it, in its own layer. -/
def Token.forwardLayers : Layers where
  semantic := [("gap", .leaf (.reference "size")), ("size", .leaf (.text "16px"))]

/-- The resolved tokens of `forwardLayers`. -/
def Token.forwardTokens : FlatTokens := [
  ⟨⟨.semantic, ["gap"]⟩, "gap", .text "16px", some "size"⟩,
  ⟨⟨.semantic, ["size"]⟩, "size", .text "16px", none⟩]

/-- The size of `forwardLayers` is used above its declaration. -/
theorem Token.declared_first_forwardLayers : forwardLayers.resolve = .ok forwardTokens ∧
    Angular.variableFile forwardTokens = "$gap: $size;\n$size: 16px;\n" ∧
    ¬ Angular.DeclaresFirst forwardTokens ∧
    forwardTokens.map (Compose.constantLine forwardTokens) =
      ["    val gap = size", "    val size = 16.dp"] ∧
    ¬ Compose.DeclaresFirst forwardTokens := by
  refine ⟨by decide +kernel, by decide +kernel, fun hfirst => ?_, by decide +kernel,
    fun hfirst => ?_⟩
  · obtain ⟨u, hu, -⟩ := hfirst [] _ _ rfl "$size" (by decide +kernel)
    cases hu
  · obtain ⟨u, hu, -⟩ := hfirst [] _ _ rfl "size" (by decide +kernel)
    cases hu

end DesignSystem
