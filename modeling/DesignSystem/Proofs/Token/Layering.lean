import DesignSystem.Generation.Transformation
import DesignSystem.Generator.Css
import DesignSystem.Proofs.Token.Cycle

/-!
# Where chains of references end

`t.EndsAt l last`: following references from the leaf `l` leads to the raw leaf `last`.

* `exists_endsAt`, `Layers.EndsAt.unique`: from every leaf of resolved trees exactly one raw leaf is
  reached.
* `Layers.Leads.layer`: what one step can do to the layer.
* `exists_entry`: a chain from the semantic layer comes into the component layer only
  by an absolute reference.
* `layersHold_iff`: when all semantic leaves end at primitive ones.
* `chains_end`: all of it for the tokens of a schema; where a chain does not end, nothing is
  generated. `chains_end_rawRoleLayers` shows a semantic leaf that ends in its own layer.
-/

set_option autoImplicit false

namespace DesignSystem.Token

/-- Following references from a leaf leads to a raw leaf. -/
structure Layers.EndsAt (t : Layers) (l last : Place × Leaf) : Prop where
  leads : Relation.ReflTransGen t.Leads l last
  raw : last.2.isReference = false

/-- A target is a path from the root of a layer. -/
def IsAbsolute (layer : Layer) (target : String) : Prop :=
  (Text.splitAtChar '.' target).head? = some layer.name

section
variable {t : Layers} {l last x y : Place × Leaf} {flat : FlatTokens}

/-! ## One end -/

theorem Layers.Leads.isReference (h : t.Leads x y) : x.2.isReference = true := by
  cases h
  rfl

/-- A raw leaf leads nowhere. -/
theorem eq_of_raw (h : Relation.ReflTransGen t.Leads x y) (hx : x.2.isReference = false) :
    y = x := by
  rcases Relation.ReflTransGen.cases_head h with rfl | ⟨z, hlead, -⟩
  · rfl
  · exact absurd hlead.isReference (by simp [hx])

/-- What a chain comes through ends where the chain ends. -/
theorem Layers.EndsAt.of_leads (h : t.EndsAt l last) (hx : Relation.ReflTransGen t.Leads l x) :
    t.EndsAt x last := by
  have hunique : Relator.RightUnique t.Leads := fun _ _ _ hy hz => hy.unique hz
  rcases Relation.ReflTransGen.total_of_right_unique hunique hx h.leads with hxl | hlx
  · exact ⟨hxl, h.raw⟩
  · rw [eq_of_raw hlx h.raw]
    exact ⟨.refl, h.raw⟩

theorem Layers.EndsAt.unique (h : t.EndsAt l last) (h' : t.EndsAt l x) : x = last :=
  eq_of_raw (h'.of_leads h.leads).leads h.raw

theorem mem_leaves_of_leads (h : Relation.ReflTransGen t.Leads l x) (hl : l ∈ t.leaves) :
    x ∈ t.leaves := by
  rcases Relation.ReflTransGen.cases_tail h with rfl | ⟨y, -, hlead⟩
  · exact hl
  · exact hlead.mem_leaves

theorem Layers.Chain.exists_endsAt {p : Place} {v raw : Leaf} (h : t.Chain p v raw) :
    ∃ q, t.EndsAt (p, v) (q, raw) := by
  induction h with
  | @raw p v h => exact ⟨p, .refl, h⟩
  | step hq hw _ ih =>
    obtain ⟨last, hleads, hraw⟩ := ih
    exact ⟨last, .head (.step hq hw) hleads, hraw⟩

theorem Layers.EndsAt.chain (h : t.EndsAt l last) : t.Chain l.1 l.2 last.2 := by
  obtain ⟨hleads, hraw⟩ := h
  induction hleads using Relation.ReflTransGen.head_induction_on with
  | refl => exact .raw hraw
  | head hlead _ ih =>
    cases hlead with
    | step hq hw => exact .step hq hw ih

/-- In resolved trees every leaf ends at a raw leaf, which has the value of its token. -/
theorem exists_endsAt (h : t.resolve = .ok flat) (hl : l ∈ t.leaves) :
    ∃ last ∈ t.leaves, t.EndsAt l last ∧ ∃ tok ∈ flat, tok.place = l.1 ∧ tok.value = last.2 := by
  obtain ⟨tok, htok, hres⟩ := exists_of_forall₂ (forall₂_resolves h).flip hl
  obtain ⟨q, hend⟩ := ((hres.value tok.value).2 rfl).exists_endsAt
  exact ⟨_, mem_leaves_of_leads hend.leads hl, hend, tok, htok, hres.place, rfl⟩

theorem rawPrimitives (h : t.resolve = .ok flat) : t.RawPrimitives := by
  intro l hl hlayer
  obtain ⟨value, reference, hr⟩ := exists_resolveLeaf_ok h l hl
  exact isReference_of_primitive hr hlayer

/-! ## Which layer -/

/-- A reference that is not absolute stays in the layers that are searched from its own. -/
theorem Layers.Leads.layer {p : Place} {target : String} (h : t.Leads (p, .reference target) y) :
    IsAbsolute y.1.layer target ∨ y.1.layer ∈ p.layer.searchOrder := by
  cases h with
  | step hq _ =>
    cases hq with
    | absolute hsplit _ => exact .inl (by simp [IsAbsolute, hsplit])
    | relative _ _ horder =>
      refine .inr ?_
      rw [horder]
      exact List.mem_append_right _ List.mem_cons_self

/-- A chain from outside the component layer comes into it only by an absolute reference. -/
theorem exists_entry (hraw : t.RawPrimitives) (hl : l ∈ t.leaves)
    (hlayer : l.1.layer ≠ .component) (h : Relation.ReflTransGen t.Leads l y)
    (hy : y.1.layer = .component) :
    ∃ p target, Relation.ReflTransGen t.Leads l (p, .reference target) ∧
      p.layer = .semantic ∧ IsAbsolute .component target := by
  induction h with
  | refl => exact absurd hy hlayer
  | @tail x y hx hlead ih =>
    by_cases hcomponent : x.1.layer = .component
    · exact ih hcomponent
    · obtain ⟨p, v⟩ := x
      obtain ⟨target, rfl⟩ : ∃ target, v = .reference target := by
        cases hlead
        exact ⟨_, rfl⟩
      have hmem := mem_leaves_of_leads hx hl
      have hsemantic : p.layer = .semantic := by
        cases hp : p.layer with
        | primitive => exact nomatch hraw _ hmem hp
        | semantic => rfl
        | component => exact absurd hp hcomponent
      refine ⟨p, target, hx, hsemantic, ?_⟩
      rcases hlead.layer with habsolute | hsearch
      · exact hy ▸ habsolute
      · rw [hy, hsemantic] at hsearch
        exact absurd hsearch (by decide)

/-- The layer invariant: all chains from semantic leaves end in the primitive layer. -/
def Layers.LayersHold (t : Layers) : Prop :=
  ∀ l ∈ t.leaves, l.1.layer = .semantic → ∀ last, t.EndsAt l last → last.1.layer = .primitive

/-- It holds where no semantic leaf is raw and those with an absolute reference into the component
layer keep it. -/
theorem layersHold_iff (hraw : t.RawPrimitives) : t.LayersHold ↔
    (∀ l ∈ t.leaves, l.1.layer = .semantic → l.2.isReference = true) ∧
      ∀ p target, (p, .reference target) ∈ t.leaves → p.layer = .semantic →
        IsAbsolute .component target → ∀ last, t.EndsAt (p, .reference target) last →
          last.1.layer = .primitive := by
  constructor
  · intro h
    refine ⟨fun l hl hlayer => ?_, fun p target hp hlayer _ => h _ hp hlayer⟩
    by_contra hreference
    have hprimitive := h l hl hlayer l ⟨.refl, by simpa using hreference⟩
    rw [hlayer] at hprimitive
    cases hprimitive
  · rintro ⟨hreferences, habsolute⟩ l hl hlayer last hend
    cases hlast : last.1.layer with
    | primitive => rfl
    | semantic =>
      have hreference := hreferences last (mem_leaves_of_leads hend.leads hl) hlast
      rw [hend.raw] at hreference
      cases hreference
    | component =>
      obtain ⟨p, target, hp, hsemantic, hcomponent⟩ :=
        exists_entry hraw hl (by simp [hlayer]) hend.leads hlast
      have hprimitive := habsolute p target (mem_leaves_of_leads hp hl) hsemantic hcomponent last
        (hend.of_leads hp)
      rw [hlast] at hprimitive
      cases hprimitive

end

/-- Where the chains of resolved trees end. -/
structure Layers.Layered (t : Layers) (flat : FlatTokens) : Prop where
  /-- From every leaf one raw leaf is reached, which has the value of the leaf's token. -/
  ends : ∀ l ∈ t.leaves, ∃ last ∈ t.leaves, t.EndsAt l last ∧
    (∀ other, t.EndsAt l other → other = last) ∧
    ∃ tok ∈ flat, tok.place = l.1 ∧ tok.value = last.2
  primitive : t.RawPrimitives
  component : ∀ l ∈ t.leaves, l.1.layer = .semantic → ∀ last, t.EndsAt l last →
    last.1.layer = .component →
      ∃ p target, Relation.ReflTransGen t.Leads l (p, .reference target) ∧
        p.layer = .semantic ∧ IsAbsolute .component target
  holds : t.LayersHold ↔
    (∀ l ∈ t.leaves, l.1.layer = .semantic → l.2.isReference = true) ∧
      ∀ p target, (p, .reference target) ∈ t.leaves → p.layer = .semantic →
        IsAbsolute .component target → ∀ last, t.EndsAt (p, .reference target) last →
          last.1.layer = .primitive

theorem layered {t : Layers} {flat : FlatTokens} (h : t.resolve = .ok flat) : t.Layered flat where
  ends l hl := by
    obtain ⟨last, hlast, hend, htok⟩ := exists_endsAt h hl
    exact ⟨last, hlast, hend, fun other hother => hend.unique hother, htok⟩
  primitive := rawPrimitives h
  component l hl hlayer last hend hlast :=
    exists_entry (rawPrimitives h) hl (by simp [hlayer]) hend.leads hlast
  holds := layersHold_iff (rawPrimitives h)

/-- Nothing is generated for tokens that are not resolved. -/
theorem transform_eq_error (g : Generator) (source : TemplateSource) {s : Schema}
    (options : TransformOptions) (h : ∀ flat, s.tokens.resolve ≠ .ok flat) :
    ∃ e, g.transform source s options = .error (.schema e) := by
  have hvalidate : ∃ e, s.validate = .error e := by
    unfold Schema.validate
    cases hr : s.tokens.resolve with
    | ok flat => exact absurd hr (h flat)
    | error e => split <;> exact ⟨_, rfl⟩
  obtain ⟨e, he⟩ := hvalidate
  refine ⟨e, ?_⟩
  rw [Generator.transform, Generator.validate, he]
  rfl

/-- **Every chain of resolved tokens ends at a raw leaf**, and a schema with a chain that does not
is refused before anything is generated. In which layer chains end is not checked. -/
theorem chains_end (g : Generator) (source : TemplateSource) (s : Schema)
    (options : TransformOptions) :
    (∀ flat, s.tokens.resolve = .ok flat → s.tokens.Layered flat) ∧
    ((∃ l ∈ s.tokens.leaves, ∀ last, ¬ s.tokens.EndsAt l last) →
      ∃ e, g.transform source s options = .error (.schema e)) := by
  refine ⟨fun flat h => layered h, ?_⟩
  rintro ⟨l, hl, hnone⟩
  refine transform_eq_error g source options fun flat h => ?_
  obtain ⟨last, -, hend, -⟩ := exists_endsAt h hl
  exact hnone last hend

/-- A gap whose chain leads through the component layer and back to a primitive value. -/
def detourLayers : Layers where
  primitive := [("spacing", .group [("md", .leaf (.text "1rem"))])]
  semantic := [("spacing", .group [("section", .leaf (.reference "md"))]),
    ("gap", .leaf (.reference "component.card.gap"))]
  component := [("card", .group [("gap", .leaf (.reference "spacing.section"))])]

/-- The roles of `mutualLayers` lead to each other for ever. -/
theorem not_endsAt_mutualLayers (last : Place × Leaf) :
    ¬ mutualLayers.EndsAt (⟨.semantic, ["a"]⟩, .reference "b") last := by
  have hb : mutualLayers.locate ⟨.semantic, ["a"]⟩ "b" =
      some (⟨.semantic, ["b"]⟩, .reference "a") := by decide +kernel
  have ha : mutualLayers.locate ⟨.semantic, ["b"]⟩ "a" =
      some (⟨.semantic, ["a"]⟩, .reference "b") := by decide +kernel
  obtain ⟨hbAt, hbLeaf⟩ := locate_eq_some_iff.1 hb
  obtain ⟨haAt, haLeaf⟩ := locate_eq_some_iff.1 ha
  intro h
  exact h.chain.not_transGen_self (.head (.step hbAt hbLeaf) (.single (.step haAt haLeaf)))

theorem chains_end_detourLayers :
    (∃ flat, detourLayers.resolve = .ok flat ∧ detourLayers.Layered flat) ∧
    (∃ l ∈ mutualLayers.leaves, ∀ last, ¬ mutualLayers.EndsAt l last) ∧
      ∃ e, Css.generator.transform .empty { id := "acme", tokens := mutualLayers } {} =
        .error (.schema e) := by
  have hok : detourLayers.resolve.toOption.isSome = true := by decide +kernel
  have hnone : ∃ l ∈ mutualLayers.leaves, ∀ last, ¬ mutualLayers.EndsAt l last :=
    ⟨_, .head _, not_endsAt_mutualLayers⟩
  refine ⟨?_, hnone, (chains_end Css.generator .empty
    { id := "acme", tokens := mutualLayers } {}).2 hnone⟩
  cases h : detourLayers.resolve with
  | ok flat =>
    exact ⟨flat, rfl, (chains_end Css.generator .empty
      { id := "acme", tokens := detourLayers } {}).1 flat h⟩
  | error e =>
    rw [h] at hok
    cases hok

/-- A gap among the roles that holds a raw value. -/
def rawRoleLayers : Layers where
  semantic := [("gap", .leaf (.text "1px"))]

/-- It resolves, and its chain ends where it starts. -/
theorem chains_end_rawRoleLayers :
    (∃ flat, rawRoleLayers.resolve = .ok flat) ∧
      ¬ ∀ l ∈ rawRoleLayers.leaves, l.1.layer = .semantic →
        ∃ last, rawRoleLayers.EndsAt l last ∧ last.1.layer = .primitive := by
  refine ⟨⟨_, rfl⟩, fun h => ?_⟩
  obtain ⟨last, hend, hprimitive⟩ := h (⟨.semantic, ["gap"]⟩, .text "1px") (.head _) rfl
  rw [eq_of_raw hend.leads rfl] at hprimitive
  cases hprimitive

end DesignSystem.Token
