import DesignSystem.Proofs.Token.Reference
import Mathlib.Data.List.Forall2
import Mathlib.Data.List.Nodup

/-!
# Resolved lists

`t.Resolves leaf tok`: `tok` is the leaf with the raw value at the end of its chain of references.

* `forall₂_resolves`, `nodup_names`: resolving lists the leaves in order, each as its token, under
  distinct names.
* `get?_eq_some_iff`, `get?_eq_none_iff`: distinct names find their own tokens.
* `resolve_sound`: a list that resolving gives is an `IsResolution`, all of it together.
-/

set_option autoImplicit false

namespace DesignSystem.Token

/-- A token is a leaf with the raw value at the end of its chain. -/
structure Layers.Resolves (t : Layers) (leaf : Place × Leaf) (tok : FlatToken) : Prop where
  place : tok.place = leaf.1
  name : tok.name = flatName leaf.1.path
  value : ∀ raw, t.Chain leaf.1 leaf.2 raw ↔ raw = tok.value
  own : leaf.2.isReference = false → tok.value = leaf.2 ∧ tok.reference = none
  /-- A reference shows the name of the leaf that it finds first. -/
  reference : ∀ target, leaf.2 = .reference target →
    ∃ q, t.Locates leaf.1 target q ∧ tok.reference = some (flatName q.path)

/-! ## One leaf after the other -/

theorem Layers.Chain.iff_eq {t : Layers} {p : Place} {v a : Leaf} (h : t.Chain p v a) (raw : Leaf) :
    t.Chain p v raw ↔ raw = a :=
  ⟨fun h' => h'.unique h, fun he => he ▸ h⟩

/-- What resolving one leaf gives. -/
theorem resolves_of_resolveLeaf {t : Layers} {p : Place} {v value : Leaf}
    {reference : Option String} (h : t.resolveLeaf p v = .ok (value, reference)) :
    t.Resolves (p, v) ⟨p, flatName p.path, value, reference⟩ := by
  unfold Layers.resolveLeaf at h
  split at h
  · rename_i target
    dsimp only at h
    split at h
    · cases h
    · split at h
      · cases h
      · rename_i q w hq
        obtain ⟨hl, hw⟩ := locate_eq_some_iff.1 hq
        cases hf : t.follow (without p.qualified (t.leaves.map (·.1.qualified))) [p.qualified] q w with
        | error e => rw [hf] at h; cases h
        | ok raw =>
          rw [hf] at h
          cases h
          exact ⟨rfl, rfl, (Layers.Chain.step hl hw (chain_of_follow hf)).iff_eq,
            fun hraw => (by cases hraw),
            fun _ ht => by cases ht; exact ⟨q, hl, rfl⟩⟩
  · rename_i hv
    cases h
    have hraw := isReference_eq_false_of hv
    exact ⟨rfl, rfl, (Layers.Chain.raw hraw).iff_eq, fun _ => ⟨rfl, rfl⟩,
      fun target ht => (hv target ht).elim⟩

theorem get?_eq_none_iff {ts : FlatTokens} {name : String} :
    FlatTokens.get? name ts = none ↔ ∀ tok ∈ ts, tok.name ≠ name := by
  simp [FlatTokens.get?]

theorem get?_eq_some_iff {ts : FlatTokens} (hnd : (ts.map (·.name)).Nodup) {name : String}
    {tok : FlatToken} : FlatTokens.get? name ts = some tok ↔ tok ∈ ts ∧ tok.name = name := by
  constructor
  · intro h
    exact ⟨List.mem_of_find?_eq_some h, by simpa using List.find?_some h⟩
  · rintro ⟨hm, rfl⟩
    cases hg : FlatTokens.get? tok.name ts with
    | none => exact (get?_eq_none_iff.1 hg tok hm rfl).elim
    | some x =>
      have hx : x.name = tok.name := by simpa using List.find?_some hg
      rw [List.inj_on_of_nodup_map hnd (List.mem_of_find?_eq_some hg) hm hx]

theorem resolveNext_ok {t : Layers} {before after : FlatTokens} {leaf : Place × Leaf}
    (h : t.resolveNext before leaf = .ok after) :
    ∃ tok, after = before ++ [tok] ∧ t.Resolves leaf tok ∧ ∀ x ∈ before, x.name ≠ tok.name := by
  obtain ⟨p, v⟩ := leaf
  unfold Layers.resolveNext at h
  dsimp only at h
  cases hr : t.resolveLeaf p v with
  | error e => rw [hr] at h; cases h
  | ok r =>
    obtain ⟨value, reference⟩ := r
    rw [hr] at h
    cases hg : FlatTokens.get? (flatName p.path) before with
    | some first => simp [bind, Except.bind, hg] at h
    | none =>
      simp only [bind, Except.bind, hg, Except.ok.injEq] at h
      exact ⟨_, h.symm, resolves_of_resolveLeaf hr, get?_eq_none_iff.1 hg⟩

/-! ## The whole list -/

theorem foldlM_resolveNext_ok {t : Layers} {leaves : List (Place × Leaf)} :
    ∀ {before after : FlatTokens}, leaves.foldlM t.resolveNext before = .ok after →
      ∃ new, after = before ++ new ∧ List.Forall₂ t.Resolves leaves new ∧
        ((before.map (·.name)).Nodup → (after.map (·.name)).Nodup) := by
  induction leaves with
  | nil =>
    intro before after h
    cases h
    exact ⟨[], by simp, .nil, id⟩
  | cons leaf leaves ih =>
    intro before after h
    rw [List.foldlM_cons] at h
    cases hn : t.resolveNext before leaf with
    | error e => rw [hn] at h; cases h
    | ok next =>
      rw [hn] at h
      obtain ⟨tok, rfl, hr, hfresh⟩ := resolveNext_ok hn
      obtain ⟨new, rfl, hall, hnodup⟩ := ih h
      refine ⟨tok :: new, by simp, .cons hr hall, fun hb => hnodup ?_⟩
      rw [List.map_append, List.nodup_append]
      refine ⟨hb, by simp, fun a ha b hb' => ?_⟩
      obtain ⟨x, hx, rfl⟩ := List.mem_map.1 ha
      rw [List.map_singleton, List.mem_singleton] at hb'
      rw [hb']
      exact hfresh x hx

/-- A fold that succeeds has succeeded on every element. -/
theorem exists_of_foldlM_ok {α β ε : Type} {f : β → α → Except ε β} {as : List α} :
    ∀ {b b' : β}, as.foldlM f b = .ok b' → ∀ a ∈ as, ∃ c c', f c a = .ok c' := by
  induction as with
  | nil => nofun
  | cons a as ih =>
    intro b b' h x hx
    rw [List.foldlM_cons] at h
    cases hf : f b a with
    | error e => rw [hf] at h; cases h
    | ok c =>
      rw [hf] at h
      rcases List.mem_cons.1 hx with rfl | hx
      · exact ⟨b, c, hf⟩
      · exact ih h x hx

theorem exists_resolveLeaf_ok {t : Layers} {leaves : List (Place × Leaf)}
    {before after : FlatTokens} (h : leaves.foldlM t.resolveNext before = .ok after) :
    ∀ l ∈ leaves, ∃ value reference, t.resolveLeaf l.1 l.2 = .ok (value, reference) := by
  intro l hl
  obtain ⟨p, v⟩ := l
  obtain ⟨tokens, tokens', hnext⟩ := exists_of_foldlM_ok h _ hl
  cases hr : t.resolveLeaf p v with
  | error e => simp [Layers.resolveNext, hr, bind, Except.bind] at hnext
  | ok r => exact ⟨r.1, r.2, rfl⟩

/-- No primitive leaf is a reference. -/
def Layers.RawPrimitives (t : Layers) : Prop :=
  ∀ l ∈ t.leaves, l.1.layer = .primitive → l.2.isReference = false

/-- A primitive leaf resolves only if it is raw. -/
theorem isReference_of_primitive {t : Layers} {p : Place} {v : Leaf} {r : Leaf × Option String}
    (h : t.resolveLeaf p v = .ok r) (hp : p.layer = .primitive) : v.isReference = false := by
  cases v with
  | reference target => simp [Layers.resolveLeaf, hp] at h
  | _ => rfl

/-- Lists whose elements agree one by one in what two functions make of them. -/
theorem map_eq_map_of_forall₂ {α β γ : Type} {R : α → β → Prop} {f : α → γ} {g : β → γ}
    {as : List α} {bs : List β} (h : List.Forall₂ R as bs) (hfg : ∀ a b, R a b → f a = g b) :
    as.map f = bs.map g := by
  induction h with
  | nil => rfl
  | cons hr _ ih => rw [List.map_cons, List.map_cons, hfg _ _ hr, ih]

section
variable {t : Layers} {flat : FlatTokens} (h : t.resolve = .ok flat)
include h

/-- Resolving lists the leaves in order, each as its token. -/
theorem forall₂_resolves : List.Forall₂ t.Resolves t.leaves flat := by
  obtain ⟨new, rfl, hall, -⟩ := foldlM_resolveNext_ok h
  exact hall

theorem nodup_names : (flat.map (·.name)).Nodup := by
  obtain ⟨new, rfl, -, hnodup⟩ := foldlM_resolveNext_ok h
  exact hnodup .nil

theorem exists_resolves {tok : FlatToken} (htok : tok ∈ flat) :
    ∃ leaf ∈ t.leaves, t.Resolves leaf tok :=
  exists_of_forall₂ (forall₂_resolves h) htok

theorem isReference_value {tok : FlatToken} (htok : tok ∈ flat) :
    tok.value.isReference = false := by
  obtain ⟨leaf, -, hr⟩ := exists_resolves h htok
  exact ((hr.value _).2 rfl).isReference_eq_false

theorem nodup_paths : (flat.map (·.place.path)).Nodup := by
  have hname : flat.map (·.name) = (flat.map (·.place.path)).map flatName := by
    rw [List.map_map]
    refine List.map_congr_left fun tok htok => ?_
    obtain ⟨leaf, -, hr⟩ := exists_resolves h htok
    rw [hr.name, Function.comp_apply, hr.place]
  exact List.Nodup.of_map _ (hname ▸ nodup_names h)

theorem nodup_places : (flat.map (·.place)).Nodup := by
  refine List.Nodup.of_map Place.path ?_
  rw [List.map_map]
  exact nodup_paths h

end

/-- A list holds the leaves of the layers in order, each leaf once with the raw value at the end of
its chain of references, and its names find exactly its tokens. -/
structure Layers.IsResolution (t : Layers) (flat : FlatTokens) : Prop where
  tokens : List.Forall₂ t.Resolves t.leaves flat
  leaves : ∀ p v, (p, v) ∈ t.leaves ↔ HasLeaf (t.tree p.layer) p.path v
  order : t.leaves.Pairwise fun a b => t.Earlier a.1 b.1
  places : (flat.map (·.place)).Nodup
  raw : ∀ tok ∈ flat, tok.value.isReference = false
  names : (flat.map (·.name)).Nodup
  get : ∀ name tok, flat.get? name = some tok ↔ tok ∈ flat ∧ tok.name = name
  getNone : ∀ name, flat.get? name = none ↔ ∀ tok ∈ flat, tok.name ≠ name

/-- **A resolved list is right**, whatever the trees are. -/
theorem resolve_sound {t : Layers} {flat : FlatTokens} (h : t.resolve = .ok flat) :
    t.IsResolution flat where
  tokens := forall₂_resolves h
  leaves _ _ := mem_layers_leaves
  order := layers_leaves_pairwise t
  places := nodup_places h
  raw _ htok := isReference_value h htok
  names := nodup_names h
  get _ _ := get?_eq_some_iff (nodup_names h)
  getNone _ := get?_eq_none_iff

/-- A gap whose reference leads from the components over the semantic layer to a primitive value,
each time relative to the groups around the leaf that holds it. -/
def gapLayers : Layers where
  primitive := [("spacing", .group [("md", .leaf (.text "1rem"))])]
  semantic := [("spacing", .group [("section", .leaf (.reference "md"))])]
  component := [("card", .group [("gap", .leaf (.reference "spacing.section"))])]

/-- The resolved tokens of `gapLayers`. -/
def gapTokens : FlatTokens := [
  ⟨⟨.primitive, ["spacing", "md"]⟩, "spacing-md", .text "1rem", none⟩,
  ⟨⟨.semantic, ["spacing", "section"]⟩, "spacing-section", .text "1rem", some "spacing-md"⟩,
  ⟨⟨.component, ["card", "gap"]⟩, "card-gap", .text "1rem", some "spacing-section"⟩]

theorem resolve_sound_gapLayers :
    gapLayers.resolve = .ok gapTokens ∧ gapLayers.IsResolution gapTokens :=
  have h : gapLayers.resolve = .ok gapTokens := by decide +kernel
  ⟨h, resolve_sound h⟩

end DesignSystem.Token
