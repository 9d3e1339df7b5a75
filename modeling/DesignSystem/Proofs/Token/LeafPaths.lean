import DesignSystem.Proofs.Schema.RoundTrip
import DesignSystem.Proofs.Token.Disguise
import DesignSystem.Proofs.Token.Insertion
import Mathlib.Data.List.Nodup

/-!
# Paths of leaves

`g.Reachable`: the tree `g` comes from reading JSON, inserting nodes and putting leaves at paths. No
group of such a tree has a key twice.

* `HasLeaf.lookup`: then each leaf is found at its path.
* `nodup_paths_leaves`: no two leaves have one path.
* `eq_of_lookup_prefix`: behind a leaf nothing is found.
* `Group.Reachable.leaves_lookup`: so walking a tree lists just what can be looked up.
-/

set_option autoImplicit false

namespace DesignSystem.Token

/-! ## Trees without repeated keys -/

theorem isPlain_toJson_cons {key : String} {n : Node} {rest : Group} :
    (Group.toJson ((key, n) :: rest)).IsPlain ↔
      key ∉ Entries.names rest ∧ n.toJson.IsPlain ∧ rest.toJson.IsPlain := by
  rw [isPlain_toJson_iff, isPlain_toJson_iff (g := rest), Entries.distinct_cons]
  simp only [List.mem_cons, Prod.mk.injEq]
  constructor
  · rintro ⟨⟨hkey, hrest⟩, hnodes⟩
    exact ⟨hkey, hnodes _ _ (.inl ⟨rfl, rfl⟩), hrest, fun k m hm => hnodes k m (.inr hm)⟩
  · rintro ⟨hkey, hn, hrest, hnodes⟩
    refine ⟨⟨hkey, hrest⟩, ?_⟩
    rintro k m (⟨rfl, rfl⟩ | hm)
    · exact hn
    · exact hnodes k m hm

/-- Without repeated keys each leaf is found at its path. -/
theorem HasLeaf.lookup {g : Group} {path : Path} {v : Leaf} (h : HasLeaf g path v)
    (hplain : g.toJson.IsPlain) : g.lookup path = some v := by
  induction h with
  | leaf hmem => rw [Group.lookup, Entries.get?_of_mem (isPlain_toJson_iff.1 hplain).1 hmem]
  | group hmem hin ih =>
    obtain ⟨hdistinct, hnodes⟩ := isPlain_toJson_iff.1 hplain
    obtain ⟨next, rest, rfl, -⟩ := hin.head_mem
    rw [Group.lookup, Entries.get?_of_mem hdistinct hmem]
    exact ih (hnodes _ _ hmem)

theorem mem_paths_leaves {g : Group} {path : Path} :
    path ∈ g.leaves.map (·.1) ↔ ∃ v, HasLeaf g path v := by
  rw [List.mem_map]
  constructor
  · rintro ⟨⟨_, v⟩, hmem, rfl⟩
    exact ⟨v, mem_leaves.1 hmem⟩
  · rintro ⟨v, h⟩
    exact ⟨(path, v), mem_leaves.2 h, rfl⟩

/-- Without repeated keys no two leaves have one path. -/
theorem nodup_paths_leaves {g : Group} (hplain : g.toJson.IsPlain) :
    (g.leaves.map (·.1)).Nodup := by
  -- a path that starts with the first key leads to no leaf behind the first entry
  have hnew : ∀ {key : String} {rest : Group} {path : Path}, key ∉ Entries.names rest →
      key :: path ∉ rest.leaves.map (·.1) := by
    intro key rest path hkey hmem
    obtain ⟨v, hleaf⟩ := mem_paths_leaves.1 hmem
    obtain ⟨_, _, heq, hname⟩ := hleaf.head_mem
    exact hkey ((List.cons.inj heq).1 ▸ hname)
  induction g using Group.induction with
  | nil => exact List.nodup_nil
  | leaf key v rest ih =>
    obtain ⟨hkey, -, hrest⟩ := isPlain_toJson_cons.1 hplain
    rw [leaves_cons_leaf, List.map_cons, List.nodup_cons]
    exact ⟨hnew hkey, ih hrest⟩
  | group key child rest ihchild ih =>
    obtain ⟨hkey, hchild, hrest⟩ := isPlain_toJson_cons.1 hplain
    rw [leaves_cons_group, List.map_append, List.map_map, List.nodup_append]
    refine ⟨?_, ih hrest, ?_⟩
    · have hpaths := (ihchild hchild).map (f := (key :: ·)) List.cons_injective
      rwa [List.map_map] at hpaths
    · rintro path hpath _ hother rfl
      obtain ⟨l, -, rfl⟩ := List.mem_map.1 hpath
      exact hnew hkey hother

/-! ## What is found behind a leaf -/

theorem Node.at?_append (p q : Path) (n : Node) : n.at? (p ++ q) = (n.at? p).bind (at? q) := by
  induction p generalizing n with
  | nil => rw [List.nil_append, at?_nil, Option.bind_some]
  | cons key p ih =>
    cases n with
    | leaf v => rfl
    | group entries =>
      rw [List.cons_append, at?_cons_group, at?_cons_group, Option.bind_assoc]
      exact congrArg _ (funext ih)

theorem nodeAt?_of_lookup {g : Group} {path : Path} {v : Leaf} (h : g.lookup path = some v) :
    g.nodeAt? path = some (.leaf v) := by
  rw [Group.lookup_eq] at h
  obtain ⟨n, hn, hleaf⟩ := Option.bind_eq_some_iff.1 h
  cases n with
  | group entries => cases hleaf
  | leaf w => rw [hn, Option.some.inj hleaf]

/-- Behind a leaf nothing is found. -/
theorem eq_of_lookup_prefix {g : Group} {p q : Path} {v w : Leaf} (hp : g.lookup p = some v)
    (hq : g.lookup q = some w) (h : p <+: q) : p = q := by
  obtain ⟨rest, rfl⟩ := h
  have hbehind := nodeAt?_of_lookup hq
  rw [Group.nodeAt?, Node.at?_append, ← Group.nodeAt?, nodeAt?_of_lookup hp] at hbehind
  cases rest with
  | nil => rw [List.append_nil]
  | cons key rest => cases hbehind

/-! ## Trees that can be reached -/

/-- A tree that comes from reading JSON, inserting nodes and putting leaves at paths. -/
inductive Group.Reachable : Group → Prop
  | empty : Reachable []
  | read {d : Json.Draft} {g : Group} : Decoder.group d = .ok g → Reachable g
  | leaf {g : Group} (key : String) (v : Leaf) : Reachable g → Reachable (g.insert key (.leaf v))
  | group {g child : Group} (key : String) : Reachable g → Reachable child →
      Reachable (g.insert key (.group child))
  | path {g : Group} (path : String) (v : Leaf) : Reachable g → Reachable (g.insertPath path v)

theorem Group.Reachable.isPlain {g : Group} (h : g.Reachable) : g.toJson.IsPlain := by
  induction h with
  | empty => exact isPlain_toJson_iff.2 ⟨List.nodup_nil, nofun⟩
  | read hread => exact Decoder.yields_isPlain_group _ _ hread
  | leaf key v _ ih => exact isPlain_insert ih (isPlain_toJson_leaf v) key
  | group key _ _ ih ihchild => exact isPlain_insert ih (isPlain_toJson_group ihchild) key
  | path path v _ ih => exact isPlain_insertAt v _ ih

/-- **Walking a tree and looking up paths agree.** However a tree was read and changed, the leaves
that are listed are those that are found at their paths; each path is listed once, and none of them
is the beginning of another. -/
theorem Group.Reachable.leaves_lookup {g : Group} (h : g.Reachable) :
    (∀ path v, (path, v) ∈ g.leaves ↔ path ≠ [] ∧ g.lookup path = some v) ∧
    (g.leaves.map (·.1)).Nodup ∧
    ∀ p ∈ g.leaves.map (·.1), ∀ q ∈ g.leaves.map (·.1), p <+: q → p = q := by
  refine ⟨fun path v => ?_, nodup_paths_leaves h.isPlain, fun p hp q hq hprefix => ?_⟩
  · rw [mem_leaves]
    constructor
    · intro hleaf
      obtain ⟨_, _, rfl, -⟩ := hleaf.head_mem
      exact ⟨List.cons_ne_nil _ _, hleaf.lookup h.isPlain⟩
    · exact fun hlookup => hasLeaf_of_lookup hlookup.2
  · obtain ⟨v, hv⟩ := mem_paths_leaves.1 hp
    obtain ⟨w, hw⟩ := mem_paths_leaves.1 hq
    exact eq_of_lookup_prefix (hv.lookup h.isPlain) (hw.lookup h.isPlain) hprefix

/-- A scale with an empty key, and one in which a dot stands, as it is written. -/
def halfScaleSource : Json.Value :=
  .object [("size", .object [("", .string "1rem"), ("0.5", .string "2px")])]

def halfScale : Group :=
  [("size", .group [("", .leaf (.text "1rem")), ("0.5", .leaf (.text "2px"))])]

theorem group_halfScaleSource : Decoder.group halfScaleSource.draft = .ok halfScale := rfl

/-- The leaf under the empty key gives place to a group, whose leaf is found and listed. -/
theorem Group.Reachable.leaves_lookup_halfScale :
    (halfScale.insertPath "size..wide" (.text "9px")).Reachable ∧
    (["size", "", "wide"], .text "9px") ∈
      (halfScale.insertPath "size..wide" (.text "9px")).leaves ∧
    (["size", ""], .text "1rem") ∉ (halfScale.insertPath "size..wide" (.text "9px")).leaves := by
  have h : (halfScale.insertPath "size..wide" (.text "9px")).Reachable :=
    .path _ _ (.read group_halfScaleSource)
  obtain ⟨hagree, -, hprefix⟩ := leaves_lookup h
  have hwide := (hagree ["size", "", "wide"] (.text "9px")).2 ⟨List.cons_ne_nil _ _, by decide⟩
  refine ⟨h, hwide, fun hold => ?_⟩
  have heq := hprefix ["size", ""] (List.mem_map.2 ⟨_, hold, rfl⟩) ["size", "", "wide"]
    (List.mem_map.2 ⟨_, hwide, rfl⟩) ⟨["wide"], rfl⟩
  exact absurd heq (by decide)

end DesignSystem.Token
