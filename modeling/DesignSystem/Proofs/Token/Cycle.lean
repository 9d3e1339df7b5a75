import DesignSystem.Proofs.Text.Split
import DesignSystem.Proofs.Token.Resolution
import Mathlib.Logic.Relation

/-!
# Why resolving fails

`t.Trail l trail y`: following references from the leaf `l` leads through `trail` to the leaf `y`.

* `error_of_resolve`: the first leaf that cannot be resolved explains the error, by a trail that
  starts there or by the name that it shares with an earlier leaf.
* `resolve_circular`: if references are told to be circular, a trail comes back to a dotted path.
* `resolve_truthful`: where no two leaves share a dotted path, it comes back to a leaf, and trees
  whose chains all end are resolved. `resolve_dottedLayers` shows two leaves that share one.
-/

set_option autoImplicit false

namespace DesignSystem.Token

/-- The reference of one leaf finds another. -/
inductive Layers.Leads (t : Layers) : Place × Leaf → Place × Leaf → Prop
  | step {p q : Place} {target : String} {w : Leaf} :
      t.Locates p target q → t.lookup q = some w → Leads t (p, .reference target) (q, w)

/-- Following references from `l` leads through the leaves of a trail to another leaf. -/
inductive Layers.Trail (t : Layers) (l : Place × Leaf) : List (Place × Leaf) → Place × Leaf → Prop
  | start : Trail t l [] l
  | step {trail : List (Place × Leaf)} {x y : Place × Leaf} :
      Trail t l trail x → t.Leads x y → Trail t l (trail ++ [x]) y

/-- What an error says of the references that are followed from `l`. -/
inductive Layers.Explains (t : Layers) (l : Place × Leaf) : ResolveError → Prop
  | referenceInPrimitive {trail : List (Place × Leaf)} {p : Place} {target : String} :
      t.Trail l trail (p, .reference target) → p.layer = .primitive →
      Explains t l (.referenceInPrimitive p.qualified)
  | dangling {trail : List (Place × Leaf)} {p : Place} {target : String} :
      t.Trail l trail (p, .reference target) → t.locate p target = none →
      Explains t l (.dangling p.qualified target)
  | circular {trail : List (Place × Leaf)} {x y : Place × Leaf} :
      t.Trail l trail y → x ∈ trail → x.1.qualified = y.1.qualified →
      Explains t l (.circular ((trail ++ [y]).map (·.1.qualified)))

/-! ## Trails -/

section
variable {t : Layers} {l x y z : Place × Leaf} {trail : List (Place × Leaf)}

theorem Layers.Leads.unique (hy : t.Leads x y) (hz : t.Leads x z) : y = z := by
  obtain ⟨hq, hw⟩ := hy
  cases hz with
  | step hq' hw' =>
    have h := locate_eq_some_iff.2 ⟨hq, hw⟩
    rw [locate_eq_some_iff.2 ⟨hq', hw'⟩] at h
    exact (Option.some.inj h).symm

theorem Layers.Leads.mem_leaves (h : t.Leads x y) : y ∈ t.leaves := by
  obtain ⟨-, hw⟩ := h
  exact mem_leaves_of_lookup hw

theorem Layers.Trail.mem_leaves (h : t.Trail l trail y) (hl : l ∈ t.leaves) : y ∈ t.leaves := by
  cases h with
  | start => exact hl
  | step _ hlead => exact hlead.mem_leaves

theorem Layers.Trail.mem_leaves_of_mem (h : t.Trail l trail y) (hl : l ∈ t.leaves) :
    ∀ x ∈ trail, x ∈ t.leaves := by
  induction h with
  | start => nofun
  | step htrail _ ih =>
    intro x hx
    rcases List.mem_append.1 hx with hx | hx
    · exact ih x hx
    · rw [List.mem_singleton.1 hx]
      exact htrail.mem_leaves hl

/-- What lies on a trail leads to its end. -/
theorem Layers.Trail.transGen (h : t.Trail l trail y) :
    ∀ x ∈ trail, Relation.TransGen t.Leads x y := by
  induction h with
  | start => nofun
  | step htrail hlead ih =>
    intro x hx
    rcases List.mem_append.1 hx with hx | hx
    · exact (ih x hx).tail hlead
    · rw [List.mem_singleton.1 hx]
      exact .single hlead

/-- A leaf that a trail leads to has the raw value of the leaf where the trail starts. -/
theorem Layers.Trail.chain {raw : Leaf} (h : t.Trail l trail y) (hl : t.Chain l.1 l.2 raw) :
    t.Chain y.1 y.2 raw := by
  induction h with
  | start => exact hl
  | step _ hlead ih =>
    obtain ⟨hq, hw⟩ := hlead
    cases ih with
    | raw h => cases h
    | step hq' hw' hchain =>
      cases Layers.Leads.unique (.step hq hw) (.step hq' hw')
      exact hchain

/-- A leaf whose chain ends does not lead to itself. -/
theorem Layers.Chain.not_transGen_self {p : Place} {v raw : Leaf} (h : t.Chain p v raw) :
    ¬ Relation.TransGen t.Leads (p, v) (p, v) := by
  induction h with
  | raw h =>
    intro hcycle
    obtain ⟨y, hlead, -⟩ := Relation.TransGen.head'_iff.1 hcycle
    cases hlead
    cases h
  | step hq hw _ ih =>
    intro hcycle
    obtain ⟨y, hlead, hback⟩ := Relation.TransGen.head'_iff.1 hcycle
    obtain rfl := hlead.unique (.step hq hw)
    exact ih (.tail' hback hlead)

end

/-! ## The first error -/

theorem error_of_follow {t : Layers} {l : Place × Leaf} (hl : l ∈ t.leaves)
    {fresh chain : List String} {p : Place} {v : Leaf} {e : ResolveError}
    (h : t.follow fresh chain p v = .error e) {trail : List (Place × Leaf)}
    (htrail : t.Trail l trail (p, v)) (hchain : chain = trail.map (·.1.qualified))
    (hfresh : ∀ x ∈ t.leaves,
      x.1.qualified ∈ fresh ∨ ∃ y ∈ trail, y.1.qualified = x.1.qualified) : t.Explains l e := by
  unfold Layers.follow at h
  dsimp only at h
  split at h
  · next hname =>
    split at h
    · split at h
      · next hprimitive =>
        cases h
        exact .referenceInPrimitive htrail hprimitive
      · split at h
        · next hlocate =>
          cases h
          exact .dangling htrail hlocate
        · next q w hlocate =>
          obtain ⟨hq, hw⟩ := locate_eq_some_iff.1 hlocate
          refine error_of_follow hl h (htrail.step (.step hq hw))
            (by rw [hchain, List.map_append]; rfl) ?_
          -- the name that is no longer fresh is that of the leaf which joins the trail
          intro x hx
          by_cases hxname : x.1.qualified = p.qualified
          · exact .inr ⟨_, List.mem_append_right _ List.mem_cons_self, hxname.symm⟩
          · rcases hfresh x hx with hx | ⟨y, hy, hyx⟩
            · exact .inl (List.mem_filter.2 ⟨hx, by simpa using hxname⟩)
            · exact .inr ⟨y, List.mem_append_left _ hy, hyx⟩
    · cases h
  · next hname =>
    cases h
    obtain ⟨x, hx, hxname⟩ := (hfresh _ (htrail.mem_leaves hl)).resolve_left hname
    have hcycle : chain ++ [p.qualified] = (trail ++ [(p, v)]).map (·.1.qualified) := by
      rw [hchain, List.map_append]
      rfl
    rw [hcycle]
    exact .circular htrail hx hxname
  termination_by fresh.length
  decreasing_by exact length_without_lt (by assumption)

theorem error_of_resolveLeaf {t : Layers} {p : Place} {v : Leaf} (hl : (p, v) ∈ t.leaves)
    {e : ResolveError} (h : t.resolveLeaf p v = .error e) : t.Explains (p, v) e := by
  unfold Layers.resolveLeaf at h
  split at h
  · next target =>
    dsimp only at h
    split at h
    · next hprimitive =>
      cases h
      exact .referenceInPrimitive .start hprimitive
    · split at h
      · next hlocate =>
        cases h
        exact .dangling .start hlocate
      · next q w hlocate =>
        obtain ⟨hq, hw⟩ := locate_eq_some_iff.1 hlocate
        cases hf : t.follow (without p.qualified (t.leaves.map (·.1.qualified))) [p.qualified] q w
          with
        | ok raw =>
          rw [hf] at h
          cases h
        | error e' =>
          rw [hf] at h
          cases h
          refine error_of_follow hl hf (.step .start (.step hq hw)) rfl fun x hx => ?_
          by_cases hname : x.1.qualified = p.qualified
          · exact .inr ⟨_, List.mem_cons_self, hname.symm⟩
          · exact .inl (List.mem_filter.2 ⟨List.mem_map_of_mem hx, by simpa using hname⟩)
  · cases h

/-- A fold stops at the first element that it fails on. -/
theorem foldlM_eq_error {α β ε : Type} {f : β → α → Except ε β} {as : List α} {b : β} {e : ε}
    (h : as.foldlM f b = .error e) :
    ∃ before a after b', as = before ++ a :: after ∧ before.foldlM f b = .ok b' ∧
      f b' a = .error e := by
  induction as generalizing b with
  | nil => cases h
  | cons a as ih =>
    rw [List.foldlM_cons] at h
    cases hf : f b a with
    | error e' =>
      rw [hf] at h
      cases h
      exact ⟨[], a, as, b, rfl, rfl, hf⟩
    | ok b₁ =>
      rw [hf] at h
      obtain ⟨before, a', after, b', rfl, hbefore, hfail⟩ := ih h
      refine ⟨a :: before, a', after, b', rfl, ?_, hfail⟩
      rw [List.foldlM_cons, hf]
      exact hbefore

/-- Resolving comes as far as the first leaf that cannot be resolved or that shares its name with an
earlier leaf. -/
theorem exists_first_failure {t : Layers} {e : ResolveError} (h : t.resolve = .error e) :
    ∃ before l after flat, t.leaves = before ++ l :: after ∧
      before.foldlM t.resolveNext [] = .ok flat ∧
      (t.resolveLeaf l.1 l.2 = .error e ∨
        ∃ first ∈ before, flatName first.1.path = flatName l.1.path ∧
          e = .duplicateName (flatName l.1.path) first.1.qualified l.1.qualified) := by
  obtain ⟨before, ⟨p, v⟩, after, flat, hleaves, hbefore, hfail⟩ := foldlM_eq_error h
  refine ⟨before, (p, v), after, flat, hleaves, hbefore, ?_⟩
  unfold Layers.resolveNext at hfail
  dsimp only at hfail
  cases hr : t.resolveLeaf p v with
  | error e' =>
    rw [hr] at hfail
    cases hfail
    exact .inl rfl
  | ok r =>
    obtain ⟨value, reference⟩ := r
    rw [hr] at hfail
    cases hg : FlatTokens.get? (flatName p.path) flat with
    | none => simp [bind, Except.bind, hg] at hfail
    | some first =>
      simp only [bind, Except.bind, hg, Except.error.injEq] at hfail
      obtain ⟨new, rfl, hall, -⟩ := foldlM_resolveNext_ok hbefore
      obtain ⟨leaf, hleaf, hres⟩ := exists_of_forall₂ hall (List.mem_of_find?_eq_some hg)
      have hname : first.name = flatName p.path := by simpa using List.find?_some hg
      exact .inr ⟨leaf, hleaf, by rw [← hres.name, hname], by rw [← hfail, hres.place]⟩

/-- The first leaf that cannot be resolved explains the error, or shares its name with an earlier
leaf. -/
theorem error_of_resolve {t : Layers} {e : ResolveError} (h : t.resolve = .error e) :
    ∃ before l after, t.leaves = before ++ l :: after ∧
      (t.Explains l e ∨ ∃ first ∈ before, flatName first.1.path = flatName l.1.path ∧
        e = .duplicateName (flatName l.1.path) first.1.qualified l.1.qualified) := by
  obtain ⟨before, l, after, flat, hleaves, -, hl⟩ := exists_first_failure h
  have hmem : l ∈ t.leaves := by
    rw [hleaves]
    exact List.mem_append_right _ List.mem_cons_self
  exact ⟨before, l, after, hleaves, hl.imp_left (error_of_resolveLeaf hmem)⟩

/-- If references are told to be circular, following them from some leaf comes back to a dotted
path, and the error lists the dotted paths on the way. -/
theorem resolve_circular {t : Layers} {cycle : List String}
    (h : t.resolve = .error (.circular cycle)) :
    ∃ l ∈ t.leaves, ∃ trail y, t.Trail l trail y ∧
      cycle = (trail ++ [y]).map (·.1.qualified) ∧ ∃ x ∈ trail, x.1.qualified = y.1.qualified := by
  obtain ⟨before, l, after, hleaves, hl | ⟨first, -, -, he⟩⟩ := error_of_resolve h
  · have hmem : l ∈ t.leaves := by
      rw [hleaves]
      exact List.mem_append_right _ List.mem_cons_self
    cases hl with
    | circular htrail hx hname => exact ⟨l, hmem, _, _, htrail, rfl, _, hx, hname⟩
  · cases he

/-! ## Trees whose chains end -/

/-- Following references from some leaf comes back to a leaf that it came through. -/
def Layers.ComesBack (t : Layers) : Prop :=
  ∃ l ∈ t.leaves, ∃ trail y, t.Trail l trail y ∧ ∃ x ∈ trail, x.1 = y.1

/-- No two leaves have one dotted path. -/
def Layers.Unambiguous (t : Layers) : Prop :=
  ∀ x ∈ t.leaves, ∀ y ∈ t.leaves, x.1.qualified = y.1.qualified → x.1 = y.1

theorem Place.qualified_injective {p q : Place} (hp : p.path ≠ []) (hq : q.path ≠ [])
    (hpdots : ∀ key ∈ p.path, '.' ∉ key.toList) (hqdots : ∀ key ∈ q.path, '.' ∉ key.toList)
    (h : p.qualified = q.qualified) : p = q := by
  have hsplit : ∀ r : Place, r.path ≠ [] → (∀ key ∈ r.path, '.' ∉ key.toList) →
      Text.splitAtChar '.' r.qualified = r.layer.name :: r.path := by
    rintro ⟨layer, path⟩ hne hdots
    have hjoin : (⟨layer, path⟩ : Place).qualified =
        Text.join (String.singleton '.') (layer.name :: path) := by
      obtain ⟨key, rest, rfl⟩ := List.exists_cons_of_ne_nil hne
      rw [Place.qualified, Text.join, Text.join, String.intercalate_cons_cons]
      rfl
    rw [hjoin, Text.splitAtChar_join (by simp)]
    refine List.forall_mem_cons.2 ⟨?_, hdots⟩
    cases layer <;> decide
  have heq := hsplit p hp hpdots
  rw [h, hsplit q hq hqdots, List.cons.injEq] at heq
  obtain ⟨hname, hpath⟩ := heq
  have hlayer : Layer.ofName? q.layer.name = some p.layer := ofName?_eq_some_iff.2 hname
  rw [ofName?_eq_some_iff.2 rfl] at hlayer
  obtain ⟨layer, path⟩ := p
  obtain ⟨layer', path'⟩ := q
  obtain rfl : layer' = layer := Option.some.inj hlayer
  obtain rfl : path' = path := hpath
  rfl

/-- Leaves have dotted paths of their own if no key holds a dot. -/
theorem unambiguous_of_noDots {t : Layers}
    (h : ∀ l ∈ t.leaves, ∀ key ∈ l.1.path, '.' ∉ key.toList) : t.Unambiguous := by
  have hne : ∀ l ∈ t.leaves, l.1.path ≠ [] := by
    rintro ⟨p, v⟩ hl hnil
    obtain ⟨key, rest, hpath, -⟩ := (mem_layers_leaves.1 hl).head_mem
    rw [hpath] at hnil
    cases hnil
  exact fun x hx y hy => Place.qualified_injective (hne x hx) (hne y hy) (h x hx) (h y hy)

section
variable {t : Layers} (hchains : ∀ l ∈ t.leaves, ∃ raw, t.Chain l.1 l.2 raw)
  (hnames : (t.leaves.map fun l => flatName l.1.path).Nodup)
include hchains hnames

/-- Where all chains end, none comes back to a leaf. -/
theorem not_comesBack : ¬ t.ComesBack := by
  rintro ⟨l, hl, trail, y, htrail, x, hx, hplace⟩
  have hx' := htrail.mem_leaves_of_mem hl x hx
  have hname : flatName x.1.path = flatName y.1.path := by rw [hplace]
  obtain rfl := List.inj_on_of_nodup_map hnames hx' (htrail.mem_leaves hl) hname
  obtain ⟨raw, hraw⟩ := hchains x hx'
  exact hraw.not_transGen_self (htrail.transGen x hx)

/-- Trees without references among the primitive tokens are resolved if all chains end under names
and dotted paths of their own. -/
theorem exists_resolve_eq_ok (hun : t.Unambiguous)
    (hprimitive : ∀ l ∈ t.leaves, l.1.layer = .primitive → l.2.isReference = false) :
    ∃ flat, t.resolve = .ok flat := by
  cases h : t.resolve with
  | ok flat => exact ⟨flat, rfl⟩
  | error e =>
    obtain ⟨before, l, after, hleaves, hl⟩ := error_of_resolve h
    have hmem : l ∈ t.leaves := by
      rw [hleaves]
      exact List.mem_append_right _ List.mem_cons_self
    rcases hl with hl | ⟨first, hfirst, hname, -⟩
    · cases hl with
      | referenceInPrimitive htrail hlayer =>
        exact nomatch hprimitive _ (htrail.mem_leaves hmem) hlayer
      | dangling htrail hlocate =>
        obtain ⟨raw, hraw⟩ := hchains l hmem
        cases htrail.chain hraw with
        | raw h => cases h
        | step hq hw _ =>
          rw [locate_eq_some_iff.2 ⟨hq, hw⟩] at hlocate
          cases hlocate
      | @circular trail x y htrail hx hqualified =>
        have hplace : x.1 = y.1 :=
          hun x (htrail.mem_leaves_of_mem hmem x hx) y (htrail.mem_leaves hmem) hqualified
        exact absurd ⟨l, hmem, trail, y, htrail, x, hx, hplace⟩ (not_comesBack hchains hnames)
    · rw [hleaves, List.map_append, List.map_cons, List.nodup_append] at hnames
      exact absurd hname
        (hnames.2.2 _ (List.mem_map_of_mem hfirst) _ List.mem_cons_self)

end

/-- Where leaves have dotted paths of their own, references are told to be circular only if
following them comes back to a leaf; and trees are resolved if there are no references among the
primitive tokens, all chains end at raw values and all names are distinct. -/
theorem resolve_truthful {t : Layers} (hun : t.Unambiguous) :
    (∀ cycle, t.resolve = .error (.circular cycle) → t.ComesBack) ∧
    ((∀ l ∈ t.leaves, l.1.layer = .primitive → l.2.isReference = false) →
      (∀ l ∈ t.leaves, ∃ raw, t.Chain l.1 l.2 raw) →
      (t.leaves.map fun l => flatName l.1.path).Nodup → ∃ flat, t.resolve = .ok flat) := by
  refine ⟨fun cycle h => ?_, fun hprimitive hchains hnames =>
    exists_resolve_eq_ok hchains hnames hun hprimitive⟩
  obtain ⟨l, hl, trail, y, htrail, -, x, hx, hqualified⟩ := resolve_circular h
  exact ⟨l, hl, trail, y, htrail, x, hx,
    hun x (htrail.mem_leaves_of_mem hl x hx) y (htrail.mem_leaves hl) hqualified⟩

/-- Two roles that refer to each other. -/
def mutualLayers : Layers where
  semantic := [("a", .leaf (.reference "b")), ("b", .leaf (.reference "a"))]

theorem chain_gapLayers : ∀ l ∈ gapLayers.leaves, ∃ raw, gapLayers.Chain l.1 l.2 raw := by
  have hmd : gapLayers.Chain ⟨.primitive, ["spacing", "md"]⟩ (.text "1rem") (.text "1rem") :=
    .raw rfl
  have hsection : gapLayers.locate ⟨.semantic, ["spacing", "section"]⟩ "md" =
      some (⟨.primitive, ["spacing", "md"]⟩, .text "1rem") := by decide +kernel
  have hgap : gapLayers.locate ⟨.component, ["card", "gap"]⟩ "spacing.section" =
      some (⟨.semantic, ["spacing", "section"]⟩, .reference "md") := by decide +kernel
  obtain ⟨hmdAt, hmdLeaf⟩ := locate_eq_some_iff.1 hsection
  obtain ⟨hsectionAt, hsectionLeaf⟩ := locate_eq_some_iff.1 hgap
  have hleaves : gapLayers.leaves = [(⟨.primitive, ["spacing", "md"]⟩, .text "1rem"),
      (⟨.semantic, ["spacing", "section"]⟩, .reference "md"),
      (⟨.component, ["card", "gap"]⟩, .reference "spacing.section")] := rfl
  rw [hleaves]
  simp only [List.forall_mem_cons, List.not_mem_nil, false_implies, implies_true, and_true]
  exact ⟨⟨_, hmd⟩, ⟨_, .step hmdAt hmdLeaf hmd⟩,
    ⟨_, .step hsectionAt hsectionLeaf (.step hmdAt hmdLeaf hmd)⟩⟩

theorem resolve_truthful_mutualLayers :
    mutualLayers.ComesBack ∧ ∃ flat, gapLayers.resolve = .ok flat := by
  have hmutual : mutualLayers.Unambiguous := unambiguous_of_noDots (by decide +kernel)
  have hgap : gapLayers.Unambiguous := unambiguous_of_noDots (by decide +kernel)
  have hcircular : mutualLayers.resolve =
      .error (.circular ["semantic.a", "semantic.b", "semantic.a"]) := by decide +kernel
  exact ⟨(resolve_truthful hmutual).1 _ hcircular,
    (resolve_truthful hgap).2 (by decide +kernel) chain_gapLayers (by decide +kernel)⟩

/-- A role whose key holds a dot refers to a raw value whose keys join to the same dotted path. -/
def dottedLayers : Layers where
  semantic := [("a", .group [("b", .leaf (.text "1px"))]),
    ("a.b", .leaf (.reference "semantic.a.b"))]

/-- Its references are told to be circular, although no chain comes back and all chains end under
names of their own. -/
theorem resolve_dottedLayers :
    dottedLayers.resolve = .error (.circular ["semantic.a.b", "semantic.a.b"]) ∧
      ¬ dottedLayers.ComesBack ∧
      (∀ l ∈ dottedLayers.leaves, l.1.layer = .primitive → l.2.isReference = false) ∧
      (∀ l ∈ dottedLayers.leaves, ∃ raw, dottedLayers.Chain l.1 l.2 raw) ∧
      (dottedLayers.leaves.map fun l => flatName l.1.path).Nodup := by
  have hleaves : dottedLayers.leaves = [(⟨.semantic, ["a", "b"]⟩, .text "1px"),
      (⟨.semantic, ["a.b"]⟩, .reference "semantic.a.b")] := rfl
  have hchains : ∀ l ∈ dottedLayers.leaves, ∃ raw, dottedLayers.Chain l.1 l.2 raw := by
    have hlocates : dottedLayers.Locates ⟨.semantic, ["a.b"]⟩ "semantic.a.b"
        ⟨.semantic, ["a", "b"]⟩ := .absolute (by decide +kernel) rfl
    rw [hleaves]
    simp only [List.forall_mem_cons, List.not_mem_nil, false_implies, implies_true, and_true]
    exact ⟨⟨_, .raw rfl⟩, ⟨_, .step hlocates rfl (.raw rfl)⟩⟩
  have hnames : (dottedLayers.leaves.map fun l => flatName l.1.path).Nodup := by
    rw [hleaves]
    decide +kernel
  have hprimitive : ∀ l ∈ dottedLayers.leaves, l.1.layer = .primitive →
      l.2.isReference = false := by
    rw [hleaves]
    decide
  exact ⟨by decide +kernel, not_comesBack hchains hnames, hprimitive, hchains, hnames⟩

end DesignSystem.Token
