import DesignSystem.Proofs.Text.Split
import DesignSystem.Proofs.Token.Reference

/-!
# What putting a leaf at a path changes

`g.nodeAt? path`: the node that the keys of `path` lead to from the group `g`, a leaf or a group.

* `lookup_eq`: looking up a path is taking the leaf there.
* `nodeAt?_insertAt_self`, `nodeAt?_insertAt_behind`, `nodeAt?_insertAt_apart`: the leaf is where it
  was put, nothing is behind it, and what neither leads to it nor lies behind it is as it was.
* `nodeAt?_insertAt_before`: on the way there are groups, which keep their keys in order and get the
  next key of the path, last if it is new.
* `insertPath_writes`: the same of dotted paths.
-/

set_option autoImplicit false

namespace DesignSystem

/-- Names with one more, which comes last if it is new. -/
def Entries.withName (name : String) (names : List String) : List String :=
  if name ∈ names then names else names ++ [name]

theorem Entries.names_insert {α : Type} (name : String) (value : α) (e : Entries α) :
    names (e.insert name value) = withName name (names e) := by
  induction e with
  | nil => rfl
  | cons first rest ih =>
    obtain ⟨n, v⟩ := first
    rw [insert, withName]
    by_cases hn : n = name
    · rw [if_pos hn, if_pos (hn ▸ .head _)]
      rfl
    · have hmem : name ∈ names ((n, v) :: rest) ↔ name ∈ names rest :=
        List.mem_cons.trans (or_iff_right (Ne.symm hn))
      rw [if_neg hn, if_congr hmem rfl rfl]
      change n :: names (insert name value rest) = _
      rw [ih, withName]
      split <;> rfl

namespace Token

/-! ## Nodes at paths -/

namespace Node

/-- The leaf, if the node is one. -/
def leaf? : Node → Option Leaf
  | leaf v => some v
  | group _ => none

/-- The node that keys lead to. -/
def at? : Path → Node → Option Node
  | [], n => some n
  | key :: rest, group entries => (Entries.get? key entries).bind (at? rest)
  | _ :: _, leaf _ => none

/-- The keys of a node: those of its entries, and none if it is a leaf. -/
def keys : Node → List String
  | group entries => Entries.names entries
  | leaf _ => []

@[simp] theorem at?_nil (n : Node) : n.at? [] = some n := by cases n <;> rfl

@[simp] theorem at?_cons_group (key : String) (rest : Path) (entries : List (String × Node)) :
    (group entries).at? (key :: rest) = (Entries.get? key entries).bind (at? rest) := rfl

@[simp] theorem at?_cons_leaf (key : String) (rest : Path) (v : Leaf) :
    (leaf v).at? (key :: rest) = none := rfl

/-- Nothing is found in an empty group, but the group. -/
theorem at?_empty {q : Path} (h : q ≠ []) : (group []).at? q = none := by
  obtain ⟨key, rest, rfl⟩ := List.exists_cons_of_ne_nil h
  rfl

end Node

namespace Group

/-- The node that keys lead to from a group. No keys lead to the group itself. -/
def nodeAt? (q : Path) (g : Group) : Option Node := (Node.group g).at? q

theorem nodeAt?_insert_self (key : String) (n : Node) (rest : Path) (g : Group) :
    nodeAt? (key :: rest) (g.insert key n) = n.at? rest := by
  rw [nodeAt?, Node.at?_cons_group, Entries.get?_insert, if_pos rfl, Option.bind_some]

theorem nodeAt?_insert_of_ne {key k : String} (h : k ≠ key) (n : Node) (rest : Path) (g : Group) :
    nodeAt? (k :: rest) (g.insert key n) = g.nodeAt? (k :: rest) := by
  rw [nodeAt?, Node.at?_cons_group, Entries.get?_insert, if_neg h]
  rfl

/-- What a key leads to, the group under it leads to. -/
theorem nodeAt?_child {key : String} {q : Path} (h : q ≠ []) (g : Group) :
    (g.child key).nodeAt? q = g.nodeAt? (key :: q) := by
  rw [nodeAt?, nodeAt?, Node.at?_cons_group, child]
  cases g.get? key with
  | none => exact Node.at?_empty h
  | some n =>
    cases n with
    | group entries => rfl
    | leaf v =>
      obtain ⟨k, rest, rfl⟩ := List.exists_cons_of_ne_nil h
      rfl

theorem lookup_eq : ∀ (q : Path) (g : Group), g.lookup q = (g.nodeAt? q).bind Node.leaf?
  | [], _ => rfl
  | [last], g => by
    rw [lookup, nodeAt?, Node.at?_cons_group]
    cases g.get? last with
    | none => rfl
    | some n => cases n <;> simp [Node.leaf?]
  | key :: next :: rest, g => by
    have ih := lookup_eq (next :: rest)
    rw [lookup, nodeAt?, Node.at?_cons_group]
    cases g.get? key with
    | none => rfl
    | some n =>
      cases n with
      | group entries => exact ih entries
      | leaf v => rfl

/-! ## Putting a leaf at a path -/

variable (v : Leaf)

theorem insertAt_cons {key : String} {p : Path} (h : p ≠ []) (g : Group) :
    insertAt v (key :: p) g = g.insert key (.group (insertAt v p (g.child key))) := by
  obtain ⟨next, rest, rfl⟩ := List.exists_cons_of_ne_nil h
  rfl

theorem nodeAt?_insertAt_self {p : Path} (hp : p ≠ []) (g : Group) :
    (insertAt v p g).nodeAt? p = some (.leaf v) := by
  induction p generalizing g with
  | nil => exact absurd rfl hp
  | cons key p ih =>
    by_cases hnil : p = []
    · subst hnil
      exact nodeAt?_insert_self key (.leaf v) [] g
    · rw [insertAt_cons v hnil, nodeAt?_insert_self]
      exact ih hnil (g.child key)

theorem nodeAt?_insertAt_behind {p q : Path} (hp : p ≠ []) (hq : q ≠ []) (g : Group) :
    (insertAt v p g).nodeAt? (p ++ q) = none := by
  induction p generalizing g with
  | nil => exact absurd rfl hp
  | cons key p ih =>
    by_cases hnil : p = []
    · subst hnil
      obtain ⟨k, rest, rfl⟩ := List.exists_cons_of_ne_nil hq
      exact nodeAt?_insert_self key (.leaf v) (k :: rest) g
    · rw [insertAt_cons v hnil, List.cons_append, nodeAt?_insert_self]
      exact ih hnil (g.child key)

/-- Where the paths part, the leaf is put elsewhere. -/
theorem nodeAt?_insertAt_apart {p q : Path} (hpq : ¬ p <+: q) (hqp : ¬ q <+: p) (g : Group) :
    (insertAt v p g).nodeAt? q = g.nodeAt? q := by
  induction p generalizing q g with
  | nil => exact absurd List.nil_prefix hpq
  | cons key p ih =>
    cases q with
    | nil => exact absurd List.nil_prefix hqp
    | cons k q =>
      rw [List.cons_prefix_cons] at hpq hqp
      by_cases hk : k = key
      · subst hk
        have hpq : ¬ p <+: q := fun h => hpq ⟨rfl, h⟩
        have hqp : ¬ q <+: p := fun h => hqp ⟨rfl, h⟩
        have hp : p ≠ [] := fun h => hpq (h ▸ List.nil_prefix)
        have hq : q ≠ [] := fun h => hqp (h ▸ List.nil_prefix)
        rw [insertAt_cons v hp, nodeAt?_insert_self, ← nodeAt?_child hq]
        exact ih hpq hqp (g.child k)
      · cases p with
        | nil => exact nodeAt?_insert_of_ne hk (.leaf v) q g
        | cons next rest => exact nodeAt?_insert_of_ne hk _ q g

/-- The keys of a group on the path: those it had before, and the next key of the path. -/
theorem nodeAt?_insertAt_before {p before after : Path} {key : String}
    (hp : p = before ++ key :: after) (g : Group) : ∃ entries,
      (insertAt v p g).nodeAt? before = some (.group entries) ∧
      Entries.names entries = Entries.withName key ((g.nodeAt? before).elim [] Node.keys) := by
  induction before generalizing p g with
  | nil =>
    cases after with
    | nil =>
      subst hp
      exact ⟨_, rfl, Entries.names_insert key _ g⟩
    | cons next rest =>
      subst hp
      exact ⟨_, rfl, Entries.names_insert key _ g⟩
  | cons first before ih =>
    subst hp
    rw [List.cons_append, insertAt_cons v (by simp), nodeAt?_insert_self]
    obtain ⟨entries, hnode, hnames⟩ := ih rfl (g.child first)
    refine ⟨entries, hnode, hnames.trans ?_⟩
    have hkeys : ((g.child first).nodeAt? before).elim [] Node.keys =
        (g.nodeAt? (first :: before)).elim [] Node.keys := by
      cases before with
      | cons => rw [nodeAt?_child (by simp)]
      | nil =>
        rw [nodeAt?, nodeAt?, Node.at?_cons_group, child]
        cases g.get? first with
        | none => rfl
        | some n => cases n <;> simp [Node.keys, Entries.names]
    rw [hkeys]

end Group

/-! ## Dotted paths -/

/-- The keys of a dotted path. -/
def dottedKeys (path : String) : Path := Text.splitAtChar '.' path

theorem dottedKeys_ne_nil (path : String) : dottedKeys path ≠ [] := by
  rw [dottedKeys, Text.splitAtChar, Text.splitWhere, Ne, List.map_eq_nil_iff]
  exact Text.splitList_ne_nil _ _

/-- **Putting a leaf at a dotted path writes one leaf and nothing else.** The leaf is found at that
path; nothing is found on the way to it or behind it; whatever stands elsewhere is as it was. The
groups on the way keep their keys in order, and a new key comes last. -/
theorem insertPath_writes (path : String) (v : Leaf) (g : Group) :
    (∀ q, (g.insertPath path v).lookup q =
      if q = dottedKeys path then some v
      else if q <+: dottedKeys path ∨ dottedKeys path <+: q then none
      else g.lookup q) ∧
    (∀ q, ¬ q <+: dottedKeys path → ¬ dottedKeys path <+: q →
      (g.insertPath path v).nodeAt? q = g.nodeAt? q) ∧
    ∀ before key after, dottedKeys path = before ++ key :: after → ∃ entries,
      (g.insertPath path v).nodeAt? before = some (.group entries) ∧
      Entries.names entries = Entries.withName key ((g.nodeAt? before).elim [] Node.keys) := by
  have hp := dottedKeys_ne_nil path
  have heq : g.insertPath path v = g.insertAt v (dottedKeys path) := rfl
  rw [heq]
  generalize dottedKeys path = p at hp
  have hapart : ∀ q, ¬ q <+: p → ¬ p <+: q → (g.insertAt v p).nodeAt? q = g.nodeAt? q :=
    fun q hqp hpq => Group.nodeAt?_insertAt_apart v hpq hqp g
  refine ⟨fun q => ?_, hapart, fun before key after h => Group.nodeAt?_insertAt_before v h g⟩
  rw [Group.lookup_eq]
  split_ifs with hself hway
  · rw [hself, Group.nodeAt?_insertAt_self v hp]
    rfl
  · rcases hway with ⟨rest, rfl⟩ | ⟨rest, rfl⟩
    · -- the node on the way is a group
      obtain ⟨key, after, rfl⟩ := List.exists_cons_of_ne_nil fun h : rest = [] =>
        hself (by rw [h, List.append_nil])
      obtain ⟨entries, hnode, -⟩ := Group.nodeAt?_insertAt_before v rfl g
      rw [hnode]
      rfl
    · have hrest : rest ≠ [] := fun h => hself (by rw [h, List.append_nil])
      rw [Group.nodeAt?_insertAt_behind v hp hrest]
      rfl
  · rw [hapart q (fun h => hway (.inl h)) fun h => hway (.inr h), Group.lookup_eq]

/-- A scale in which a leaf stands in the way of a group. -/
def spacingGroup : Group := [
  ("space", .group [("sm", .leaf (.text "4px")), ("md", .leaf (.text "8px")),
    ("lg", .leaf (.text "16px"))]),
  ("ratio", .leaf (.number (.integer 2)))]

theorem insertPath_writes_spacingGroup :
    (spacingGroup.insertPath "space.md.wide" (.text "9px")).lookup ["space", "md"] = none ∧
    (spacingGroup.insertPath "space.md.wide" (.text "9px")).lookup ["space", "lg"] =
      some (.text "16px") ∧
    ∃ entries, (spacingGroup.insertPath "space.md.wide" (.text "9px")).nodeAt? ["space"] =
      some (.group entries) ∧ Entries.names entries = ["sm", "md", "lg"] := by
  obtain ⟨hlookup, -, hkeys⟩ := insertPath_writes "space.md.wide" (.text "9px") spacingGroup
  exact ⟨hlookup ["space", "md"], hlookup ["space", "lg"],
    hkeys ["space"] "md" ["wide"] (by decide)⟩

end Token

end DesignSystem
