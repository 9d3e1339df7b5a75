import DesignSystem.Proofs.Token.Cycle
import Mathlib.Data.List.Chain

/-!
# The first error

Resolving stops at the first leaf that fails; the error says what is wrong with this leaf, or with
one on its chain of references.

* `pursue_eq_follow`: a chain that is followed place by place never comes to a place without a leaf
  or to a reference among the primitive tokens.
* `reports_of_reaches`: what is wrong with the leaf at which resolving stops.
* `resolve_reports_first`: the error of trees that cannot be resolved, for all trees.
-/

set_option autoImplicit false

namespace DesignSystem.Token

/-! ## Leaves that resolving comes to -/

/-- Resolving comes to the leaf `l` over the leaves of `before`. -/
structure Layers.Reaches (t : Layers) (before : List (Place × Leaf)) (l : Place × Leaf) :
    Prop where
  split : ∃ after, t.leaves = before ++ l :: after
  resolved : ∃ flat, before.foldlM t.resolveNext [] = .ok flat

/-- The leaves of a list resolve, and each has a name of its own. -/
structure Layers.AllResolve (t : Layers) (leaves : List (Place × Leaf)) : Prop where
  resolves : ∀ l ∈ leaves, ∃ value reference,
    t.resolveLeaf l.1 l.2 = .ok (value, reference) ∧
      t.Resolves l ⟨l.1, flatName l.1.path, value, reference⟩
  names : (leaves.map fun l => flatName l.1.path).Nodup

section
variable {t : Layers} {before : List (Place × Leaf)} {l x : Place × Leaf}

theorem Layers.Reaches.mem_leaves (h : t.Reaches before l) : l ∈ t.leaves := by
  obtain ⟨after, hleaves⟩ := h.split
  rw [hleaves]
  exact List.mem_append_right _ List.mem_cons_self

theorem Layers.Reaches.allResolve (h : t.Reaches before l) : t.AllResolve before := by
  obtain ⟨flat, hflat⟩ := h.resolved
  refine ⟨fun x hx => ?_, ?_⟩
  · obtain ⟨value, reference, hr⟩ := exists_resolveLeaf_ok hflat x hx
    exact ⟨value, reference, hr, resolves_of_resolveLeaf hr⟩
  · obtain ⟨new, hnew, hall, hnodup⟩ := foldlM_resolveNext_ok hflat
    rw [List.nil_append] at hnew
    subst hnew
    rw [map_eq_map_of_forall₂ hall fun _ _ hres => hres.name.symm]
    exact hnodup .nil

/-- When resolving comes to a leaf of a later layer, it has been through the primitive tokens. -/
theorem Layers.Reaches.mem_of_primitive (h : t.Reaches before l) (hl : l.1.layer ≠ .primitive)
    (hx : x ∈ t.leaves) (hprimitive : x.1.layer = .primitive) : x ∈ before := by
  obtain ⟨after, hleaves⟩ := h.split
  have horder := layers_leaves_pairwise t
  rw [hleaves] at hx horder
  obtain ⟨-, horder, -⟩ := List.pairwise_append.1 horder
  rcases List.mem_append.1 hx with hx | hx
  · exact hx
  · rcases List.mem_cons.1 hx with rfl | hx
    · exact absurd hprimitive hl
    · rcases (List.pairwise_cons.1 horder).1 x hx with hlayers | ⟨hlayer, -⟩
      · -- no layer comes before the primitive one
        rw [hprimitive] at hlayers
        cases hlayer : l.1.layer <;> rw [hlayer] at hl hlayers
        · exact absurd rfl hl
        · exact absurd hlayers (by decide)
        · exact absurd hlayers (by decide)
      · exact absurd (hlayer.trans hprimitive) hl

/-- By then none of them is a reference. -/
theorem Layers.Reaches.rawPrimitives (h : t.Reaches before l) (hl : l.1.layer ≠ .primitive) :
    t.RawPrimitives := by
  intro x hx hprimitive
  obtain ⟨flat, hflat⟩ := h.resolved
  obtain ⟨value, reference, hr⟩ :=
    exists_resolveLeaf_ok hflat x (h.mem_of_primitive hl hx hprimitive)
  exact isReference_of_primitive hr hprimitive

end

/-! ## Following place by place -/

/-- The leaves whose dotted paths are not on a stack. -/
def Layers.offStack (t : Layers) (stack : List String) : List (Place × Leaf) :=
  t.leaves.filter (·.1.qualified ∉ stack)

theorem length_offStack_lt {t : Layers} {stack : List String} {p : Place} {v : Leaf}
    (hp : t.lookup p = some v) (hstack : p.qualified ∉ stack) :
    (t.offStack (stack ++ [p.qualified])).length < (t.offStack stack).length := by
  have hsub : t.offStack (stack ++ [p.qualified]) =
      (t.offStack stack).filter (·.1.qualified ≠ p.qualified) := by
    simp only [Layers.offStack, List.filter_filter]
    refine List.filter_congr fun x _ => ?_
    simp [and_comm]
  rw [hsub]
  refine List.length_filter_lt_length_iff_exists.2 ⟨(p, v), ?_, by simp⟩
  exact List.mem_filter.2 ⟨mem_leaves_of_lookup hp, by simpa using hstack⟩

section
variable (missing inPrimitive : List String → Place → Except ResolveError Leaf)

/-- The raw value at the end of the chain that starts at a place, where the leaf is looked up at
each place. `missing` answers at a place without a leaf, and `inPrimitive` at a reference among the
primitive tokens. -/
def Layers.pursue (t : Layers) (stack : List String) (place : Place) : Except ResolveError Leaf :=
  let name := place.qualified
  if _ : name ∈ stack then .error (.circular (stack ++ [name]))
  else
    match _ : t.lookup place with
    | none => missing stack place
    | some (.reference target) =>
      if place.layer = .primitive then inPrimitive stack place
      else
        match t.locate place target with
        | none => .error (.dangling name target)
        | some (next, _) => t.pursue (stack ++ [name]) next
    | some raw => .ok raw
  termination_by (t.offStack stack).length
  decreasing_by exact length_offStack_lt (by assumption) (by assumption)

/-- A leaf resolved that way. -/
def Layers.resolveLeafBy (t : Layers) (place : Place) :
    Leaf → Except ResolveError (Leaf × Option String)
  | .reference target =>
    let name := place.qualified
    if place.layer = .primitive then .error (.referenceInPrimitive name)
    else
      match t.locate place target with
      | none => .error (.dangling name target)
      | some (next, _) => do
        let raw ← t.pursue missing inPrimitive [name] next
        .ok (raw, some (flatName next.path))
  | raw => .ok (raw, none)

/-- A leaf resolved that way and added to the tokens before it. -/
def Layers.resolveNextBy (t : Layers) (before : FlatTokens) (leaf : Place × Leaf) :
    Except ResolveError FlatTokens := do
  let (place, v) := leaf
  let (value, reference) ← t.resolveLeafBy missing inPrimitive place v
  let name := flatName place.path
  match FlatTokens.get? name before with
  | some first => .error (.duplicateName name first.place.qualified place.qualified)
  | none => .ok (before ++ [⟨place, name, value, reference⟩])

/-- All leaves resolved that way. -/
def Layers.resolveBy (t : Layers) : Except ResolveError FlatTokens :=
  t.leaves.foldlM (t.resolveNextBy missing inPrimitive) []

variable {t : Layers}

/-- Where no primitive leaf is a reference, a chain comes to no place where `missing` or
`inPrimitive` would have to answer. -/
theorem pursue_eq_follow (hprimitive : t.RawPrimitives) {fresh stack : List String} {p : Place}
    {v : Leaf} (hp : t.lookup p = some v)
    (hfresh : ∀ name, name ∈ fresh ↔ name ∈ t.leaves.map (·.1.qualified) ∧ name ∉ stack) :
    t.pursue missing inPrimitive stack p = t.follow fresh stack p v := by
  have hname : p.qualified ∈ t.leaves.map (·.1.qualified) :=
    List.mem_map_of_mem (f := (·.1.qualified)) (mem_leaves_of_lookup hp)
  unfold Layers.pursue Layers.follow
  dsimp only
  by_cases hstack : p.qualified ∈ stack
  · have hnot : p.qualified ∉ fresh := fun h => ((hfresh _).1 h).2 hstack
    rw [dif_pos hstack, dif_neg hnot]
  · have hin : p.qualified ∈ fresh := (hfresh _).2 ⟨hname, hstack⟩
    rw [dif_neg hstack, dif_pos hin]
    split
    · next hlookup => exact nomatch hp.symm.trans hlookup
    · next target hlookup =>
      cases hp.symm.trans hlookup
      have hlayer : p.layer ≠ .primitive := fun hlayer =>
        nomatch hprimitive _ (mem_leaves_of_lookup hp) hlayer
      rw [if_neg hlayer]
      dsimp only
      rw [if_neg hlayer]
      cases hlocate : t.locate p target with
      | none => rfl
      | some found =>
        obtain ⟨q, w⟩ := found
        obtain ⟨-, hq⟩ := locate_eq_some_iff.1 hlocate
        refine pursue_eq_follow hprimitive hq fun name => ?_
        simp only [without, List.mem_filter, hfresh, List.mem_append, List.mem_singleton, not_or,
          decide_eq_true_eq, ne_eq, and_assoc]
    · next hraw hlookup =>
      cases hp.symm.trans hlookup
      cases v with
      | reference target => exact (hraw target rfl).elim
      | _ => rfl
  termination_by fresh.length
  decreasing_by exact length_without_lt hin

/-- So a leaf that resolving comes to is resolved that way just as well. -/
theorem Layers.Reaches.resolveLeafBy_eq {before : List (Place × Leaf)} {p : Place} {v : Leaf}
    (h : t.Reaches before (p, v)) :
    t.resolveLeafBy missing inPrimitive p v = t.resolveLeaf p v := by
  unfold Layers.resolveLeafBy Layers.resolveLeaf
  split
  · next target =>
    dsimp only
    by_cases hlayer : p.layer = .primitive
    · rw [if_pos hlayer, if_pos hlayer]
    · rw [if_neg hlayer, if_neg hlayer]
      cases hlocate : t.locate p target with
      | none => rfl
      | some found =>
        obtain ⟨q, w⟩ := found
        obtain ⟨-, hq⟩ := locate_eq_some_iff.1 hlocate
        dsimp only
        have hfollow : t.pursue missing inPrimitive [p.qualified] q =
            t.follow (without p.qualified (t.leaves.map (·.1.qualified))) [p.qualified] q w :=
          pursue_eq_follow missing inPrimitive (h.rawPrimitives hlayer) hq
            (by simp [without])
        rw [hfollow]
  · next hraw =>
    cases v with
    | reference target => exact (hraw target rfl).elim
    | _ => rfl

/-- Two folds agree if their steps agree wherever one of them comes to. -/
theorem foldlM_congr_of_reached {α β ε : Type} {f g : β → α → Except ε β} {as : List α} :
    ∀ {b : β}, (∀ before a after c, as = before ++ a :: after → before.foldlM f b = .ok c →
      g c a = f c a) → as.foldlM g b = as.foldlM f b := by
  induction as with
  | nil => exact fun _ => rfl
  | cons a as ih =>
    intro b h
    rw [List.foldlM_cons, List.foldlM_cons, h [] a as b rfl rfl]
    cases hf : f b a with
    | error e => rfl
    | ok c =>
      refine ih fun before x after d has hbefore => h (a :: before) x after d (by rw [has]; rfl) ?_
      rw [List.foldlM_cons, hf]
      exact hbefore

/-- Whatever is answered at a place without a leaf, or at a reference among the primitive tokens
that a chain leads to, resolving gives the same: following comes to neither. -/
theorem resolveBy_eq : t.resolveBy missing inPrimitive = t.resolve := by
  refine foldlM_congr_of_reached fun before l after flat hleaves hflat => ?_
  obtain ⟨p, v⟩ := l
  have h : t.Reaches before (p, v) := ⟨⟨after, hleaves⟩, ⟨flat, hflat⟩⟩
  exact congrArg (· >>= _) (h.resolveLeafBy_eq missing inPrimitive)

end

/-! ## Errors -/

/-- What an error says of the leaf `l`, when the leaves of `before` have been resolved. -/
inductive Layers.Reports (t : Layers) (before : List (Place × Leaf)) (l : Place × Leaf) :
    ResolveError → Prop
  | referenceInPrimitive : l.1.layer = .primitive → l.2.isReference = true →
      Reports t before l (.referenceInPrimitive l.1.qualified)
  /-- A reference on the chain of `l` finds no leaf. -/
  | dangling {p : Place} {target : String} :
      Relation.ReflTransGen t.Leads l (p, .reference target) →
      (∀ q, ¬ t.Locates p target q) → Reports t before l (.dangling p.qualified target)
  /-- Each leaf of a list that starts with `l` leads to the next one, and the last one has a dotted
  path that came before. -/
  | circular {way : List (Place × Leaf)} {last : Place × Leaf} :
      (l :: way ++ [last]).IsChain t.Leads →
      (∃ x ∈ l :: way, x.1.qualified = last.1.qualified) →
      Reports t before l (.circular ((l :: way ++ [last]).map (·.1.qualified)))
  | duplicateName {first : Place × Leaf} :
      first ∈ before → flatName first.1.path = flatName l.1.path →
      Reports t before l
        (.duplicateName (flatName l.1.path) first.1.qualified l.1.qualified)

section
variable {t : Layers} {before trail : List (Place × Leaf)} {l y : Place × Leaf} {e : ResolveError}

theorem Layers.Trail.reflTransGen (h : t.Trail l trail y) : Relation.ReflTransGen t.Leads l y := by
  induction h with
  | start => exact .refl
  | step _ hlead ih => exact ih.tail hlead

/-- A trail that leads somewhere is a list of leaves each of which leads to the next one. -/
theorem Layers.Trail.isChain (h : t.Trail l trail y) (hne : trail ≠ []) :
    ∃ way, trail = l :: way ∧ (l :: way ++ [y]).IsChain t.Leads := by
  induction h with
  | start => exact absurd rfl hne
  | @step trail x y htrail hlead ih =>
    cases htrail with
    | start => exact ⟨[], rfl, by simpa using hlead⟩
    | step htrail' hlead' =>
      obtain ⟨way, hway, hchain⟩ := ih (by simp)
      refine ⟨way ++ [x], by rw [hway]; rfl, ?_⟩
      have hlast : ([x] ++ [y]).IsChain t.Leads := by simpa using hlead
      simpa using hchain.append_overlap hlast (by simp)

/-- What is wrong with the leaf at which resolving stops. -/
theorem reports_of_reaches (h : t.Reaches before l) (hl : t.resolveLeaf l.1 l.2 = .error e) :
    t.Reports before l e := by
  obtain ⟨p, v⟩ := l
  by_cases hlayer : p.layer = .primitive
  · -- a primitive leaf fails at once
    cases v with
    | reference target =>
      simp only [Layers.resolveLeaf, hlayer, if_true, Except.error.injEq] at hl
      subst hl
      exact .referenceInPrimitive hlayer rfl
    | _ => cases hl
  · cases error_of_resolveLeaf h.mem_leaves hl with
    | referenceInPrimitive htrail hprimitive =>
      have hraw :=
        h.rawPrimitives hlayer _ (htrail.mem_leaves h.mem_leaves) hprimitive
      cases hraw
    | dangling htrail hlocate =>
      refine .dangling htrail.reflTransGen fun q hq => ?_
      obtain ⟨w, hw⟩ := hq.exists_lookup
      rw [locate_eq_some_iff.2 ⟨hq, hw⟩] at hlocate
      cases hlocate
    | circular htrail hx hname =>
      obtain ⟨way, rfl, hchain⟩ := htrail.isChain (List.ne_nil_of_mem hx)
      exact .circular hchain ⟨_, hx, hname⟩

end

/-- **Errors are about the first leaf that fails.** Trees that cannot be resolved have a leaf such
that all leaves before it resolve under names of their own, and the error says what is wrong with
it. No chain comes to a place without a leaf or to a reference among the primitive tokens, so it
does not matter how these would be answered. -/
theorem resolve_reports_first (t : Layers) :
    (∀ e, t.resolve = .error e → ∃ before l after, t.leaves = before ++ l :: after ∧
      t.AllResolve before ∧ t.Reports before l e) ∧
    ∀ missing inPrimitive, t.resolveBy missing inPrimitive = t.resolve := by
  refine ⟨fun e he => ?_, fun missing inPrimitive => resolveBy_eq missing inPrimitive⟩
  obtain ⟨before, l, after, flat, hleaves, hflat, hl⟩ := exists_first_failure he
  have h : t.Reaches before l := ⟨⟨after, hleaves⟩, ⟨flat, hflat⟩⟩
  refine ⟨before, l, after, hleaves, h.allResolve, ?_⟩
  rcases hl with hl | ⟨first, hfirst, hname, rfl⟩
  · exact reports_of_reaches h hl
  · exact .duplicateName hfirst hname

/-- A section that resolves, and a gap whose chain leads to a reference that finds nothing. -/
def lostLayers : Layers where
  primitive := [("spacing", .group [("md", .leaf (.text "1rem"))])]
  semantic := [("spacing", .group [("section", .leaf (.reference "md"))]),
    ("gap", .leaf (.reference "inner")), ("inner", .leaf (.reference "lost"))]

theorem resolve_reports_first_lostLayers :
    lostLayers.resolve = .error (.dangling "semantic.inner" "lost") ∧
      ∃ before l after, lostLayers.leaves = before ++ l :: after ∧ lostLayers.AllResolve before ∧
        lostLayers.Reports before l (.dangling "semantic.inner" "lost") := by
  have h : lostLayers.resolve = .error (.dangling "semantic.inner" "lost") := by decide +kernel
  exact ⟨h, (resolve_reports_first lostLayers).1 _ h⟩

end DesignSystem.Token
