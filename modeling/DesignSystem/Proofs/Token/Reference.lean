import DesignSystem.Proofs.Entries
import DesignSystem.Token.Resolve

/-!
# Leaves of token trees, and where references lead

`HasLeaf g path v`: the keys of `path` lead from group to group of `g` down to the leaf `v`.
`Earlier g p q`: where the paths `p` and `q` part, the key of `p` was inserted before that of `q`.

* `mem_leaves`, `leaves_pairwise`: walking a tree lists exactly its leaves, earlier ones first.
* `mem_layers_leaves`, `layers_leaves_pairwise`: the same of the three layers together.
* `hasLeaf_of_lookup`, `mem_leaves_of_lookup`: a leaf that is looked up is there.

`t.Locates source target q`: the rule by which a reference at `source` finds the leaf at `q`. A
target that starts with the name of a layer is a path from the root of that layer. Any other is
looked for layer by layer, and in each layer below the keys of the groups around `source`, from the
nearest group to the root; the first leaf other than `source` counts.

`t.Chain p v raw`: the chain of references that starts with the leaf `v` at `p` ends at `raw`.

* `locate_eq_some_iff`: the search finds what the rule says.
* `chain_of_follow`: a chain that is followed to its end is a chain by the rule.
-/

set_option autoImplicit false

namespace DesignSystem.Token

/-- The keys of a path lead from group to group down to a leaf. -/
inductive HasLeaf : Group → Path → Leaf → Prop
  | leaf {g : Group} {key : String} {v : Leaf} : (key, .leaf v) ∈ g → HasLeaf g [key] v
  | group {g child : Group} {key : String} {path : Path} {v : Leaf} :
      (key, .group child) ∈ g → HasLeaf child path v → HasLeaf g (key :: path) v

/-- One path comes before another: the first keys in which they differ were inserted in this
order. -/
inductive Earlier : Group → Path → Path → Prop
  | keys {g : Group} {key key' : String} {p q : Path} :
      [key, key'].Sublist (Entries.names g) → Earlier g (key :: p) (key' :: q)
  | inside {g child : Group} {key : String} {p q : Path} :
      (key, .group child) ∈ g → Earlier child p q → Earlier g (key :: p) (key :: q)

/-- Induction over a group: its entries one after the other, and the groups among them. -/
@[elab_as_elim]
theorem Group.induction {motive : Group → Prop} (nil : motive [])
    (leaf : ∀ key v rest, motive rest → motive ((key, .leaf v) :: rest))
    (group : ∀ key child rest, motive child → motive rest →
      motive ((key, .group child) :: rest)) : ∀ g, motive g
  | [] => nil
  | (key, .leaf v) :: rest => leaf key v rest (Group.induction nil leaf group rest)
  | (key, .group child) :: rest =>
    group key child rest (Group.induction nil leaf group child)
      (Group.induction nil leaf group rest)
  termination_by g => sizeOf g

/-! ## One tree -/

mutual

theorem node_leaves_before (before : Path) :
    ∀ node : Node, node.leaves before = (node.leaves []).map fun l => (before ++ l.1, l.2)
  | .leaf v => by simp [Node.leaves]
  | .group entries => by
    simp only [Node.leaves]
    exact leavesOf_before before entries

theorem leavesOf_before (before : Path) :
    ∀ g : Group, leavesOf before g = (leavesOf [] g).map fun l => (before ++ l.1, l.2)
  | [] => rfl
  | (key, node) :: rest => by
    simp only [leavesOf, List.map_append, List.nil_append]
    rw [leavesOf_before before rest, node_leaves_before (before ++ [key]) node,
      node_leaves_before [key] node]
    simp [Function.comp_def]

end

@[simp] theorem leaves_nil : Group.leaves [] = [] := rfl

@[simp] theorem leaves_cons_leaf (key : String) (v : Leaf) (rest : Group) :
    Group.leaves ((key, .leaf v) :: rest) = ([key], v) :: Group.leaves rest := rfl

@[simp] theorem leaves_cons_group (key : String) (child rest : Group) :
    Group.leaves ((key, .group child) :: rest) =
      (Group.leaves child).map (fun l => (key :: l.1, l.2)) ++ Group.leaves rest := by
  simp only [Group.leaves, leavesOf, Node.leaves, List.nil_append]
  rw [leavesOf_before [key] child]
  rfl

theorem HasLeaf.cons {e : String × Node} {g : Group} {path : Path} {v : Leaf}
    (h : HasLeaf g path v) : HasLeaf (e :: g) path v := by
  cases h with
  | leaf h => exact .leaf (.tail _ h)
  | group h hc => exact .group (.tail _ h) hc

theorem hasLeaf_cons_leaf {key : String} {w v : Leaf} {rest : Group} {path : Path} :
    HasLeaf ((key, .leaf w) :: rest) path v ↔ (path = [key] ∧ v = w) ∨ HasLeaf rest path v := by
  constructor
  · rintro (h | ⟨h, hc⟩)
    · rcases List.mem_cons.1 h with he | h
      · cases he
        exact .inl ⟨rfl, rfl⟩
      · exact .inr (.leaf h)
    · rcases List.mem_cons.1 h with he | h
      · cases he
      · exact .inr (.group h hc)
  · rintro (⟨rfl, rfl⟩ | h)
    · exact .leaf List.mem_cons_self
    · exact h.cons

theorem hasLeaf_cons_group {key : String} {child rest : Group} {path : Path} {v : Leaf} :
    HasLeaf ((key, .group child) :: rest) path v ↔
      (∃ p, path = key :: p ∧ HasLeaf child p v) ∨ HasLeaf rest path v := by
  constructor
  · rintro (h | ⟨h, hc⟩)
    · rcases List.mem_cons.1 h with he | h
      · cases he
      · exact .inr (.leaf h)
    · rcases List.mem_cons.1 h with he | h
      · cases he
        exact .inl ⟨_, rfl, hc⟩
      · exact .inr (.group h hc)
  · rintro (⟨p, rfl, hc⟩ | h)
    · exact .group List.mem_cons_self hc
    · exact h.cons

/-- Walking a tree lists exactly its leaves. -/
theorem mem_leaves {g : Group} {path : Path} {v : Leaf} :
    (path, v) ∈ g.leaves ↔ HasLeaf g path v := by
  induction g using Group.induction generalizing path with
  | nil =>
    simp only [leaves_nil, List.not_mem_nil, false_iff]
    rintro (h | ⟨h, -⟩) <;> simp at h
  | leaf key w rest ih =>
    rw [leaves_cons_leaf, List.mem_cons, hasLeaf_cons_leaf, ih, Prod.mk.injEq]
  | group key child rest ihc ih =>
    rw [leaves_cons_group, List.mem_append, hasLeaf_cons_group, ih, List.mem_map]
    constructor
    · rintro (⟨⟨p, w⟩, hm, he⟩ | h)
      · cases he
        exact .inl ⟨p, rfl, ihc.1 hm⟩
      · exact .inr h
    · rintro (⟨p, rfl, hc⟩ | h)
      · exact .inl ⟨(p, v), ihc.2 hc, rfl⟩
      · exact .inr h

theorem HasLeaf.head_mem {g : Group} {path : Path} {v : Leaf} (h : HasLeaf g path v) :
    ∃ key rest, path = key :: rest ∧ key ∈ Entries.names g := by
  cases h with
  | leaf h => exact ⟨_, _, rfl, List.mem_map.2 ⟨_, h, rfl⟩⟩
  | group h _ => exact ⟨_, _, rfl, List.mem_map.2 ⟨_, h, rfl⟩⟩

theorem Earlier.cons {e : String × Node} {g : Group} {p q : Path} (h : Earlier g p q) :
    Earlier (e :: g) p q := by
  cases h with
  | keys h => exact .keys (h.cons _)
  | inside h hc => exact .inside (.tail _ h) hc

/-- What lies under the first key comes before all leaves of the later entries. -/
theorem earlier_of_head {key : String} {node : Node} {rest : Group} {p q : Path} {v : Leaf}
    (h : HasLeaf rest q v) : Earlier ((key, node) :: rest) (key :: p) q := by
  obtain ⟨key', q', rfl, hm⟩ := h.head_mem
  exact .keys (.cons_cons _ (List.singleton_sublist.2 hm))

/-- Walking a tree lists its leaves in depth-first order of insertion. -/
theorem leaves_pairwise (g : Group) : g.leaves.Pairwise fun a b => Earlier g a.1 b.1 := by
  induction g using Group.induction with
  | nil => exact .nil
  | leaf key v rest ih =>
    rw [leaves_cons_leaf, List.pairwise_cons]
    exact ⟨fun b hb => earlier_of_head (mem_leaves.1 hb), ih.imp fun h => h.cons⟩
  | group key child rest ihc ih =>
    rw [leaves_cons_group, List.pairwise_append, List.pairwise_map]
    refine ⟨ihc.imp fun h => .inside List.mem_cons_self h, ih.imp fun h => h.cons, ?_⟩
    intro a ha b hb
    obtain ⟨a, -, rfl⟩ := List.mem_map.1 ha
    exact earlier_of_head (mem_leaves.1 hb)

theorem hasLeaf_of_lookup {path : Path} {g : Group} {v : Leaf} (h : g.lookup path = some v) :
    HasLeaf g path v := by
  fun_induction Group.lookup path g with
  | case1 => cases h
  | case2 g last w hget =>
    cases h
    exact .leaf (Entries.mem_of_get? hget)
  | case3 => cases h
  | case4 g key next rest child hget ih => exact .group (Entries.mem_of_get? hget) (ih h)
  | case5 => cases h

/-! ## The layers together -/

theorem mem_layer_all (layer : Layer) : layer ∈ Layer.all := by cases layer <;> decide

theorem mem_layers_leaves {t : Layers} {p : Place} {v : Leaf} :
    (p, v) ∈ t.leaves ↔ HasLeaf (t.tree p.layer) p.path v := by
  obtain ⟨layer, path⟩ := p
  simp only [Layers.leaves, List.mem_flatMap, List.mem_map]
  constructor
  · rintro ⟨layer', -, ⟨path', w⟩, hm, he⟩
    cases he
    exact mem_leaves.1 hm
  · intro h
    exact ⟨layer, mem_layer_all layer, (path, v), mem_leaves.2 h, rfl⟩

theorem mem_leaves_of_lookup {t : Layers} {p : Place} {v : Leaf} (h : t.lookup p = some v) :
    (p, v) ∈ t.leaves := mem_layers_leaves.2 (hasLeaf_of_lookup h)

/-- One place comes before another: in an earlier layer, or earlier in the same tree. -/
def Layers.Earlier (t : Layers) (p q : Place) : Prop :=
  [p.layer, q.layer].Sublist Layer.all ∨
    p.layer = q.layer ∧ Token.Earlier (t.tree p.layer) p.path q.path

theorem layers_leaves_pairwise (t : Layers) :
    t.leaves.Pairwise fun a b => t.Earlier a.1 b.1 := by
  simp only [Layers.leaves, List.pairwise_flatMap, List.pairwise_map]
  constructor
  · intro layer _
    exact (leaves_pairwise (t.tree layer)).imp fun h => .inr ⟨rfl, h⟩
  · have h : Layer.all.Pairwise fun a b => [a, b].Sublist Layer.all := by decide
    refine h.imp fun {a b} hab x hx y hy => ?_
    obtain ⟨l, -, rfl⟩ := List.mem_map.1 hx
    obtain ⟨l', -, rfl⟩ := List.mem_map.1 hy
    exact .inl hab

/-! ## The rule for references -/

/-- Where a leaf is looked for in a layer: below the outermost `depth` groups around a source. -/
def Place.candidate (source : Place) (segments : Path) (layer : Layer) (depth : Nat) : Place :=
  ⟨layer, source.path.take depth ++ segments⟩

/-- How many groups stand around a source, the root not counted. -/
def Place.depth (source : Place) : Nat := source.path.length - 1

/-- A place holds a leaf, and not the source's own. -/
def Layers.Fits (t : Layers) (source q : Place) : Prop := q ≠ source ∧ (t.lookup q).isSome

/-- The rule by which a reference finds a leaf. -/
inductive Layers.Locates (t : Layers) (source : Place) (target : String) : Place → Prop
  | absolute {layer : Layer} {rest : Path} :
      Text.splitAtChar '.' target = layer.name :: rest → (t.lookup ⟨layer, rest⟩).isSome →
      Locates t source target ⟨layer, rest⟩
  | relative {segments : Path} {before after : List Layer} {layer : Layer} {depth : Nat} :
      Text.splitAtChar '.' target = segments →
      (∀ l : Layer, segments.head? ≠ some l.name) →
      source.layer.searchOrder = before ++ layer :: after → depth ≤ source.depth →
      t.Fits source (source.candidate segments layer depth) →
      (∀ d, depth < d → d ≤ source.depth → ¬ t.Fits source (source.candidate segments layer d)) →
      (∀ l ∈ before, ∀ d ≤ source.depth, ¬ t.Fits source (source.candidate segments l d)) →
      Locates t source target (source.candidate segments layer depth)

/-- The raw value at the end of a chain of references, each of which is looked for from the place of
the leaf that holds it. -/
inductive Layers.Chain (t : Layers) : Place → Leaf → Leaf → Prop
  | raw {p : Place} {v : Leaf} : v.isReference = false → Chain t p v v
  | step {p q : Place} {target : String} {w raw : Leaf} :
      t.Locates p target q → t.lookup q = some w → Chain t q w raw →
      Chain t p (.reference target) raw

/-! ## The search -/

theorem ofName?_eq_some_iff {s : String} {layer : Layer} :
    Layer.ofName? s = some layer ↔ s = layer.name := by
  constructor
  · intro h
    have := List.find?_some h
    exact (decide_eq_true_iff.1 this).symm
  · rintro rfl
    cases layer <;> decide

theorem findSome?_flatMap {α β γ : Type} {f : β → Option γ} {g : α → List β} {l : List α} :
    (l.flatMap g).findSome? f = l.findSome? fun a => (g a).findSome? f := by
  induction l with
  | nil => rfl
  | cons a l ih =>
    rw [List.flatMap_cons, List.findSome?_append, List.findSome?_cons, ih]
    cases (g a).findSome? f <;> rfl

theorem findSome?_filter {α β : Type} {f : α → Option β} {p : α → Bool} {l : List α} :
    (l.filter p).findSome? f = l.findSome? fun a => if p a then f a else none := by
  induction l with
  | nil => rfl
  | cons a l ih =>
    rw [List.filter_cons, List.findSome?_cons]
    cases hp : p a with
    | true => simp [List.findSome?_cons, ih]
    | false => simpa using ih

/-- The first hit from `n` down to zero. -/
theorem findSome?_range_reverse {β : Type} {f : Nat → Option β} {n : Nat} {b : β} :
    (List.range (n + 1)).reverse.findSome? f = some b ↔
      ∃ d ≤ n, f d = some b ∧ ∀ d', d < d' → d' ≤ n → f d' = none := by
  induction n with
  | zero =>
    have h0 : (List.range (0 + 1)).reverse.findSome? f = f 0 := by cases hf : f 0 <;> simp [hf]
    rw [h0]
    constructor
    · intro h
      exact ⟨0, Nat.le_refl _, h, fun d' h1 h2 => by omega⟩
    · rintro ⟨d, hd, h, -⟩
      rwa [Nat.le_zero.1 hd] at h
  | succ n ih =>
    rw [List.range_succ, List.reverse_concat, List.findSome?_cons]
    cases hn : f (n + 1) with
    | some c =>
      constructor
      · rintro ⟨⟩
        exact ⟨n + 1, Nat.le_refl _, hn, fun d' h1 h2 => by omega⟩
      · rintro ⟨d, hd, h, hlast⟩
        rcases Nat.lt_or_ge d (n + 1) with hlt | hge
        · rw [hlast _ hlt (Nat.le_refl _)] at hn
          cases hn
        · rw [show d = n + 1 by omega, hn] at h
          exact h
    | none =>
      rw [ih]
      constructor
      · rintro ⟨d, hd, h, hlast⟩
        refine ⟨d, by omega, h, fun d' h1 h2 => ?_⟩
        rcases Nat.lt_or_ge d' (n + 1) with hlt | hge
        · exact hlast d' h1 (by omega)
        · rw [show d' = n + 1 by omega, hn]
      · rintro ⟨d, hd, h, hlast⟩
        have hne : d ≠ n + 1 := by
          rintro rfl
          rw [hn] at h
          cases h
        exact ⟨d, by omega, h, fun d' h1 h2 => hlast d' h1 (by omega)⟩

/-- What the search takes a place for. -/
def Layers.hit? (t : Layers) (source q : Place) : Option (Place × Leaf) :=
  if q = source then none else (t.lookup q).map fun w => (q, w)

theorem hit?_eq_some_iff {t : Layers} {source q : Place} {x : Place × Leaf} :
    t.hit? source q = some x ↔ t.Fits source q ∧ x.1 = q ∧ t.lookup q = some x.2 := by
  obtain ⟨q', w⟩ := x
  unfold Layers.hit? Layers.Fits
  by_cases hq : q = source
  · simp [hq]
  · simp only [hq, ↓reduceIte, Option.map_eq_some_iff, Prod.mk.injEq, ne_eq, not_false_eq_true,
      true_and]
    constructor
    · rintro ⟨w', hw, rfl, rfl⟩
      exact ⟨by simp [hw], rfl, hw⟩
    · rintro ⟨-, rfl, hw⟩
      exact ⟨w, hw, rfl, rfl⟩

theorem hit?_eq_none_iff {t : Layers} {source q : Place} :
    t.hit? source q = none ↔ ¬ t.Fits source q := by
  unfold Layers.hit? Layers.Fits
  by_cases hq : q = source <;> simp [hq]

/-- The candidates of one layer that fit, from the nearest group on. -/
theorem findSome?_layer (t : Layers) (source : Place) (segments : Path) (layer : Layer) :
    (((enclosing source.path).map fun group => (⟨layer, group ++ segments⟩ : Place)).filter
        (· ≠ source)).findSome? (fun q => (t.lookup q).map fun w => (q, w)) =
      (List.range (source.depth + 1)).reverse.findSome? fun d =>
        t.hit? source (source.candidate segments layer d) := by
  have htake : enclosing source.path =
      (List.range (source.depth + 1)).reverse.map source.path.take := by
    simp only [enclosing, List.length_dropLast, Place.depth]
    refine List.map_congr_left fun d hd => ?_
    have hd' : d ≤ source.path.length - 1 := by
      have := List.mem_range.1 (List.mem_reverse.1 hd)
      omega
    rw [List.dropLast_eq_take, List.take_take, Nat.min_eq_left hd']
  rw [htake, List.map_map, findSome?_filter, List.findSome?_map]
  congr 1
  funext d
  simp only [Function.comp_apply, Layers.hit?, Place.candidate]
  split <;> simp_all

/-- The search along the layers stops at the first layer with a candidate that fits, and there at
the nearest group. -/
theorem findSome?_candidatePlaces {t : Layers} {source : Place} {segments : Path}
    {x : Place × Leaf} :
    (candidatePlaces source segments).findSome? (fun q => (t.lookup q).map fun w => (q, w)) =
        some x ↔
      ∃ before layer after depth, source.layer.searchOrder = before ++ layer :: after ∧
        depth ≤ source.depth ∧ t.Fits source (source.candidate segments layer depth) ∧
        (x.1 = source.candidate segments layer depth ∧
          t.lookup (source.candidate segments layer depth) = some x.2) ∧
        (∀ d, depth < d → d ≤ source.depth →
          ¬ t.Fits source (source.candidate segments layer d)) ∧
        ∀ l ∈ before, ∀ d ≤ source.depth, ¬ t.Fits source (source.candidate segments l d) := by
  rw [candidatePlaces, findSome?_flatMap]
  simp only [findSome?_layer]
  rw [List.findSome?_eq_some_iff]
  have hnone : ∀ l : Layer, ((List.range (source.depth + 1)).reverse.findSome? fun d =>
      t.hit? source (source.candidate segments l d)) = none ↔
      ∀ d ≤ source.depth, ¬ t.Fits source (source.candidate segments l d) := by
    intro l
    simp only [List.findSome?_eq_none_iff, List.mem_reverse, List.mem_range, Nat.lt_succ_iff,
      hit?_eq_none_iff]
  constructor
  · rintro ⟨before, layer, after, hord, hhit, hbefore⟩
    obtain ⟨depth, hd, hx, hlast⟩ := findSome?_range_reverse.1 hhit
    obtain ⟨hfit, hx⟩ := hit?_eq_some_iff.1 hx
    exact ⟨before, layer, after, depth, hord, hd, hfit, hx,
      fun d h1 h2 => hit?_eq_none_iff.1 (hlast d h1 h2), fun l hl => (hnone l).1 (hbefore l hl)⟩
  · rintro ⟨before, layer, after, depth, hord, hd, hfit, hx, hlast, hbefore⟩
    refine ⟨before, layer, after, hord, ?_, fun l hl => (hnone l).2 (hbefore l hl)⟩
    exact findSome?_range_reverse.2 ⟨depth, hd, hit?_eq_some_iff.2 ⟨hfit, hx⟩,
      fun d h1 h2 => hit?_eq_none_iff.2 (hlast d h1 h2)⟩

/-- The search finds what the rule says. -/
theorem locate_eq_some_iff {t : Layers} {source q : Place} {target : String} {w : Leaf} :
    t.locate source target = some (q, w) ↔ t.Locates source target q ∧ t.lookup q = some w := by
  have hfound : ∀ p : Place, ((t.lookup p).map fun v => (p, v)) = some (q, w) ↔
      p = q ∧ t.lookup p = some w := by
    intro p
    rw [Option.map_eq_some_iff]
    simp only [Prod.mk.injEq]
    constructor
    · rintro ⟨v, hv, hp, rfl⟩
      exact ⟨hp, hv⟩
    · rintro ⟨hp, hv⟩
      exact ⟨w, hv, hp, rfl⟩
  unfold Layers.locate
  simp only
  cases habs : (Text.splitAtChar '.' target).head?.bind Layer.ofName? with
  | some layer =>
    obtain ⟨first, hfirst, hlayer⟩ := Option.bind_eq_some_iff.1 habs
    obtain rfl := ofName?_eq_some_iff.1 hlayer
    have hsplit : Text.splitAtChar '.' target =
        layer.name :: (Text.splitAtChar '.' target).tail := by
      obtain ⟨rest, hrest⟩ := List.head?_eq_some_iff.1 hfirst
      rw [hrest]; rfl
    simp only [hfound]
    constructor
    · rintro ⟨rfl, hw⟩
      exact ⟨.absolute hsplit (by simp [hw]), hw⟩
    · rintro ⟨hl, hw⟩
      cases hl with
      | @absolute layer' rest h _ =>
        rw [h, List.cons.injEq] at hsplit
        have hl : layer' = layer := by
          have hname : Layer.ofName? layer.name = some layer' :=
            ofName?_eq_some_iff.2 hsplit.1.symm
          rw [ofName?_eq_some_iff.2 rfl] at hname
          exact (Option.some.inj hname).symm
        subst hl
        simp only [h, List.tail_cons, hw, and_self]
      | relative h hne => exact absurd (h ▸ hfirst) (hne layer)
  | none =>
    have hrel : ∀ l : Layer, (Text.splitAtChar '.' target).head? ≠ some l.name := by
      intro l hl
      rw [hl, Option.bind_some, ofName?_eq_some_iff.2 rfl] at habs
      cases habs
    rw [findSome?_candidatePlaces]
    constructor
    · rintro ⟨before, layer, after, depth, hord, hd, hfit, ⟨hq, hw⟩, hlast, hbefore⟩
      simp only at hq hw
      subst hq
      exact ⟨.relative rfl hrel hord hd hfit hlast hbefore, hw⟩
    · rintro ⟨hl, hw⟩
      cases hl with
      | @absolute layer rest h _ => exact absurd (by rw [h]; rfl) (hrel layer)
      | relative h _ hord hd hfit hlast hbefore =>
        subst h
        exact ⟨_, _, _, _, hord, hd, hfit, ⟨rfl, hw⟩, hlast, hbefore⟩

theorem Layers.Locates.exists_lookup {t : Layers} {source q : Place} {target : String}
    (h : t.Locates source target q) : ∃ w, t.lookup q = some w := by
  cases h with
  | absolute _ h => exact Option.isSome_iff_exists.1 h
  | relative _ _ _ _ h => exact Option.isSome_iff_exists.1 h.2

/-- A reference finds one leaf. -/
theorem Layers.Locates.unique {t : Layers} {source q q' : Place} {target : String}
    (h : t.Locates source target q) (h' : t.Locates source target q') : q = q' := by
  obtain ⟨w, hw⟩ := h.exists_lookup
  obtain ⟨w', hw'⟩ := h'.exists_lookup
  have heq := locate_eq_some_iff.2 ⟨h, hw⟩
  rw [locate_eq_some_iff.2 ⟨h', hw'⟩] at heq
  exact (Prod.mk.inj (Option.some.inj heq)).1.symm

/-! ## Chains -/

theorem isReference_eq_false_of {v : Leaf} (h : ∀ target, v = .reference target → False) :
    v.isReference = false := by
  cases v with
  | reference target => exact (h target rfl).elim
  | _ => rfl

theorem Layers.Chain.isReference_eq_false {t : Layers} {p : Place} {v raw : Leaf}
    (h : t.Chain p v raw) : raw.isReference = false := by
  induction h with
  | raw h => exact h
  | step _ _ _ ih => exact ih

theorem Layers.Chain.unique {t : Layers} {p : Place} {v a b : Leaf} (ha : t.Chain p v a)
    (hb : t.Chain p v b) : a = b := by
  induction ha with
  | raw h =>
    cases hb with
    | raw => rfl
    | step => cases h
  | step hq hw _ ih =>
    cases hb with
    | raw h => cases h
    | step hq' hw' hb =>
      have h := locate_eq_some_iff.2 ⟨hq, hw⟩
      rw [locate_eq_some_iff.2 ⟨hq', hw'⟩] at h
      cases h
      exact ih hb

/-- A chain that is followed to its end is a chain by the rule. -/
theorem chain_of_follow {t : Layers} {fresh chain : List String} {p : Place} {v raw : Leaf}
    (h : t.follow fresh chain p v = .ok raw) : t.Chain p v raw := by
  unfold Layers.follow at h
  dsimp only at h
  split at h
  · next hname =>
    split at h
    · split at h
      · cases h
      · split at h
        · cases h
        · next q w hq =>
          obtain ⟨hl, hw⟩ := locate_eq_some_iff.1 hq
          exact .step hl hw (chain_of_follow h)
    · next hv =>
      cases h
      exact .raw (isReference_eq_false_of hv)
  · cases h
  termination_by fresh.length
  decreasing_by exact length_without_lt (by assumption)

end DesignSystem.Token
