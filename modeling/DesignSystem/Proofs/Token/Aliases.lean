import DesignSystem.Proofs.Token.Cycle
import DesignSystem.Token.Constant
import Mathlib.Data.List.Perm.Subperm

/-!
# References inside a resolved list

A resolved token shows the name of the token that it refers to, and that name can be followed.

* `exists_target`: the name belongs to the token of the leaf that the reference finds, which has the
  same value.
* `exists_end`: following names ends, and all tokens on the way have one value.
* `lt_length_of_following`: a way that ends is shorter than the list.
* `get?_of_reference`, `exists_following`: both for the tokens of a resolved list.
* `references_stay`: all of it together.
-/

set_option autoImplicit false

namespace DesignSystem

/-- The token that `n` references after each other lead to. -/
def FlatTokens.following (flat : FlatTokens) : Nat → FlatToken → Option FlatToken
  | 0, tok => some tok
  | n + 1, tok => (flat.target? tok).bind (flat.following n)

namespace Token

/-! ## Following names -/

section
variable {flat : FlatTokens} {tok u : FlatToken} {n : Nat}

theorem following_succ_of_target (h : flat.target? tok = some u) :
    flat.following (n + 1) tok = flat.following n u := by
  rw [FlatTokens.following, h, Option.bind_some]

theorem following_succ_of_none (h : tok.reference = none) : flat.following (n + 1) tok = none := by
  rw [FlatTokens.following, FlatTokens.target?, h]
  rfl

theorem following_add (m : Nat) :
    flat.following (m + n) tok = (flat.following m tok).bind (flat.following n) := by
  induction m generalizing tok with
  | zero =>
    rw [Nat.zero_add]
    rfl
  | succ m ih =>
    rw [Nat.add_right_comm, FlatTokens.following, FlatTokens.following, Option.bind_assoc]
    congr 1
    funext next
    exact ih

/-- A way that ends has a token after each number of references. -/
theorem exists_following_of_le (h : flat.following n tok = some u) {k : Nat} (hk : k ≤ n) :
    ∃ w, flat.following k tok = some w ∧ flat.following (n - k) w = some u := by
  rw [← Nat.add_sub_of_le hk, following_add] at h
  exact Option.bind_eq_some_iff.1 h

/-- A way that ends does not come to a token twice. -/
theorem following_ne_of_lt (h : flat.following n tok = some u) (hu : u.reference = none)
    {i j : Nat} (hij : i < j) (hj : j ≤ n) : flat.following i tok ≠ flat.following j tok := by
  intro heq
  obtain ⟨w, hw, hlater⟩ := exists_following_of_le h hj
  obtain ⟨w', hw', hearlier⟩ := exists_following_of_le h (Nat.le_trans (Nat.le_of_lt hij) hj)
  obtain rfl : w' = w := by
    rw [hw', hw] at heq
    exact Option.some.inj heq
  -- from the same token the end is met at once and again some references later
  obtain ⟨k, hk⟩ : ∃ k, n - i = (n - j) + (k + 1) := ⟨j - i - 1, by omega⟩
  rw [hk, following_add, hlater, Option.bind_some, following_succ_of_none hu] at hearlier
  cases hearlier

/-- A token whose way ends does not refer to itself. -/
theorem target?_ne_self (h : flat.following n tok = some u) (hu : u.reference = none) :
    flat.target? tok ≠ some tok := by
  intro hself
  cases n with
  | zero =>
    cases h
    rw [FlatTokens.target?, hu] at hself
    cases hself
  | succ n =>
    refine following_ne_of_lt h hu Nat.zero_lt_one (Nat.le_add_left 1 n) ?_
    rw [following_succ_of_target hself]

/-- A way that ends is shorter than the list whose tokens it comes through. -/
theorem lt_length_of_following (h : flat.following n tok = some u) (hu : u.reference = none)
    (hmem : ∀ k ≤ n, ∃ w ∈ flat, flat.following k tok = some w) : n < flat.length := by
  have hnodup : ((List.range (n + 1)).map fun k => flat.following k tok).Nodup := by
    refine List.Nodup.map_on (fun i hi j hj heq => ?_) List.nodup_range
    have hi : i ≤ n := Nat.lt_succ_iff.1 (List.mem_range.1 hi)
    have hj : j ≤ n := Nat.lt_succ_iff.1 (List.mem_range.1 hj)
    rcases Nat.lt_trichotomy i j with hij | hij | hij
    · exact absurd heq (following_ne_of_lt h hu hij hj)
    · exact hij
    · exact absurd heq.symm (following_ne_of_lt h hu hij hi)
  have hsubset : ((List.range (n + 1)).map fun k => flat.following k tok) ⊆ flat.map some := by
    intro x hx
    obtain ⟨k, hk, rfl⟩ := List.mem_map.1 hx
    obtain ⟨w, hw, hkw⟩ := hmem k (Nat.lt_succ_iff.1 (List.mem_range.1 hk))
    rw [hkw]
    exact List.mem_map_of_mem hw
  have hlength := (List.Nodup.subperm hnodup hsubset).length_le
  simp only [List.length_map, List.length_range] at hlength
  exact hlength

end

/-! ## Resolved lists -/

section
variable {t : Layers} {flat : FlatTokens}

/-- A reference that finds a leaf shows the name of that leaf's token, which has the same value. -/
theorem exists_target (h : t.resolve = .ok flat) {x y : Place × Leaf} {tok : FlatToken}
    (hlead : t.Leads x y) (htok : t.Resolves x tok) :
    ∃ u ∈ flat, t.Resolves y u ∧ tok.reference = some u.name ∧ u.value = tok.value := by
  obtain ⟨u, hu, hres⟩ := exists_of_forall₂ (forall₂_resolves h).flip hlead.mem_leaves
  refine ⟨u, hu, hres, ?_, ?_⟩
  · cases hlead with
    | step hq hw =>
      obtain ⟨q', hq', href⟩ := htok.reference _ rfl
      rw [href, hres.name, hq.unique hq']
  · have hchain := (htok.value _).2 rfl
    exact ((hres.value _).1 (Layers.Trail.chain (.step .start hlead) hchain)).symm

/-- The token of a name that is shown is looked up under that name. -/
theorem target?_eq_some (h : t.resolve = .ok flat) {tok u : FlatToken} (hu : u ∈ flat)
    (href : tok.reference = some u.name) : flat.target? tok = some u := by
  rw [FlatTokens.target?, href, Option.bind_some]
  exact (get?_eq_some_iff (nodup_names h)).2 ⟨hu, rfl⟩

/-- Following names from the token of a leaf ends where the chain of the leaf ends, and all tokens
on the way have its value. -/
theorem exists_end (h : t.resolve = .ok flat) {p : Place} {v raw : Leaf}
    (hchain : t.Chain p v raw) {tok : FlatToken} (hmem : tok ∈ flat)
    (htok : t.Resolves (p, v) tok) :
    ∃ n u, flat.following n tok = some u ∧ u.reference = none ∧
      ∀ k ≤ n, ∃ w ∈ flat, flat.following k tok = some w ∧ w.value = tok.value := by
  induction hchain generalizing tok with
  | raw hraw =>
    refine ⟨0, tok, rfl, (htok.own hraw).2, fun k hk => ⟨tok, hmem, ?_, rfl⟩⟩
    rw [Nat.le_zero.1 hk]
    rfl
  | step hq hw _ ih =>
    obtain ⟨u, hu, hres, href, hvalue⟩ := exists_target h (.step hq hw) htok
    have htarget := target?_eq_some h hu href
    obtain ⟨n, last, hlast, hnone, hway⟩ := ih hu hres
    refine ⟨n + 1, last, by rw [following_succ_of_target htarget, hlast], hnone, fun k hk => ?_⟩
    cases k with
    | zero => exact ⟨tok, hmem, rfl, rfl⟩
    | succ k =>
      obtain ⟨w, hw, hk, hwvalue⟩ := hway k (Nat.le_of_succ_le_succ hk)
      exact ⟨w, hw, by rw [following_succ_of_target htarget, hk], hwvalue.trans hvalue⟩

/-- A token that is a reference shows the name of another token of the list, that of the leaf which
the reference finds, and has its value. -/
theorem get?_of_reference (h : t.resolve = .ok flat) {tok : FlatToken} (htok : tok ∈ flat)
    {name : String} (hname : tok.reference = some name) :
    ∃ u, flat.get? name = some u ∧ u ≠ tok ∧ u.value = tok.value ∧
      ∃ target, (tok.place, .reference target) ∈ t.leaves ∧ t.Locates tok.place target u.place := by
  obtain ⟨⟨p, v⟩, hleaf, hres⟩ := exists_resolves h htok
  cases v with
  | reference target =>
    obtain ⟨q, hq, href⟩ := hres.reference target rfl
    obtain ⟨w, hw⟩ := hq.exists_lookup
    obtain ⟨u, hu, hresu, hrefu, hvalue⟩ := exists_target h (.step hq hw) hres
    obtain rfl : name = u.name := Option.some.inj (hname.symm.trans hrefu)
    obtain ⟨n, last, hlast, hnone, -⟩ := exists_end h ((hres.value _).2 rfl) htok hres
    have hplace : tok.place = p := hres.place
    refine ⟨u, (get?_eq_some_iff (nodup_names h)).2 ⟨hu, rfl⟩, ?_, hvalue, target, ?_, ?_⟩
    · rintro rfl
      exact target?_ne_self hlast hnone (target?_eq_some h hu hname)
    · rwa [hplace]
    · rw [hplace, hresu.place]
      exact hq
  | _ =>
    rw [(hres.own rfl).2] at hname
    cases hname

/-- Following names from a token ends in fewer steps than there are tokens, all of one value. -/
theorem exists_following (h : t.resolve = .ok flat) {tok : FlatToken} (htok : tok ∈ flat) :
    ∃ n < flat.length, ∃ last, flat.following n tok = some last ∧ last.reference = none ∧
      ∀ k ≤ n, ∃ w ∈ flat, flat.following k tok = some w ∧ w.value = tok.value := by
  obtain ⟨⟨p, v⟩, hleaf, hres⟩ := exists_resolves h htok
  obtain ⟨n, last, hlast, hnone, hway⟩ := exists_end h ((hres.value _).2 rfl) htok hres
  have hlt : n < flat.length := by
    refine lt_length_of_following hlast hnone fun k hk => ?_
    obtain ⟨w, hw, hkw, -⟩ := hway k hk
    exact ⟨w, hw, hkw⟩
  exact ⟨n, hlt, last, hlast, hnone, hway⟩

end

/-- The references of a list stay inside it: each names another token of the list, the one of the
leaf that the reference finds, which has the same value; and following them ends in fewer steps than
there are tokens, all of one value. -/
structure Layers.ReferencesStay (t : Layers) (flat : FlatTokens) : Prop where
  target : ∀ tok ∈ flat, ∀ name, tok.reference = some name →
    ∃ u, flat.get? name = some u ∧ u ≠ tok ∧ u.value = tok.value ∧
      ∃ target, (tok.place, .reference target) ∈ t.leaves ∧ t.Locates tok.place target u.place
  ends : ∀ tok ∈ flat, ∃ n < flat.length, ∃ last, flat.following n tok = some last ∧
    last.reference = none ∧
    ∀ k ≤ n, ∃ w ∈ flat, flat.following k tok = some w ∧ w.value = tok.value

/-- The references of a resolved list stay inside it. -/
theorem references_stay {t : Layers} {flat : FlatTokens} (h : t.resolve = .ok flat) :
    t.ReferencesStay flat where
  target _ htok _ hname := get?_of_reference h htok hname
  ends _ htok := exists_following h htok

/-- The references of `gapTokens` lead from the gap over the section to the raw value. -/
theorem references_stay_gapLayers :
    gapLayers.resolve = .ok gapTokens ∧ gapLayers.ReferencesStay gapTokens :=
  have h : gapLayers.resolve = .ok gapTokens := by decide +kernel
  ⟨h, references_stay h⟩

end Token

end DesignSystem
