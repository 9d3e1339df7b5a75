import DesignSystem.Proofs.Token.Acceptance
import DesignSystem.Schema.Encoding

/-!
# Trees that are read as other trees

Not every tree that can be built is what some object is read as. A text may look like a reference in
braces, and the only entry of a group may be a text under a key of references. Both are written as
they are and read as references. `n.reread` is what is read for the node `n`.

* `Node.ofJson_toJson_eq`: every node is read as some node.
* `rereadAll_eq_self`: a tree without such disguises is read as it is.
* `leavesOf_rereadAll`: leaf by leaf, nothing changes but for leaves that become references.
* `Group.Built.rewritten`: a tree keeps its list of names and values exactly if no disguise is in
  it.
-/

set_option autoImplicit false

namespace DesignSystem.Token

open Json (Value)

/-! ## Disguises -/

/-- A node that is no reference, and is written like one. -/
inductive Node.IsDisguised : Node → Prop
  | text {target : String} : IsTarget target → IsDisguised (.leaf (.text (braced target)))
  | group {key target : String} : IsReferenceKey key →
      IsDisguised (.group [(key, .leaf (.text target))])

/-- The second node is the first, or stands somewhere in it. -/
inductive Node.Contains : Node → Node → Prop
  | self (n : Node) : Contains n n
  | entry {entries : List (String × Node)} {key : String} {n m : Node} :
      (key, n) ∈ entries → Contains n m → Contains (.group entries) m

/-- A node stands somewhere in a tree. -/
def Group.Holds (g : Group) (m : Node) : Prop := ∃ key n, (key, n) ∈ g ∧ n.Contains m

mutual

/-- What is read where a node is written. -/
def Node.reread : Node → Node
  | .leaf (.text s) =>
    match bracedTarget? s with
    | some target => .leaf (.reference target)
    | none => .leaf (.text s)
  | .leaf v => .leaf v
  | .group entries =>
    match referenceTarget? (nodesToJson entries) with
    | some target => .leaf (.reference target)
    | none => .group (rereadAll entries)

/-- What is read where named nodes are written. -/
def rereadAll : List (String × Node) → List (String × Node)
  | [] => []
  | (key, node) :: rest => (key, node.reread) :: rereadAll rest

end

mutual

theorem Node.ofJson_toJson_eq : ∀ (n : Node) (path : Path), Node.ofJson path n.toJson = .ok n.reread
  | .leaf (.text s), path => by
    rw [Node.toJson, Leaf.toJson, Node.ofJson, Node.reread]
    cases bracedTarget? s <;> rfl
  | .leaf (.list items), path => ofJson_list path items
  | .leaf (.reference target), path => ofJson_reference path target
  | .leaf (.number _), _ | .leaf (.flag _), _ => rfl
  | .group entries, path => by
    rw [Node.toJson, Node.ofJson, Node.reread]
    cases referenceTarget? (nodesToJson entries) with
    | some target => rfl
    | none =>
      dsimp only
      rw [nodesOfJson_nodesToJson_eq entries path]
      rfl

theorem nodesOfJson_nodesToJson_eq : ∀ (nodes : List (String × Node)) (path : Path),
    nodesOfJson path (nodesToJson nodes) = .ok (rereadAll nodes)
  | [], _ => rfl
  | (key, node) :: rest, path => by
    rw [nodesToJson, nodesOfJson, Node.ofJson_toJson_eq node, nodesOfJson_nodesToJson_eq rest]
    rfl

end

/-! ## Nodes without disguises -/

theorem referenceTarget?_nodesToJson_eq_none {entries : List (String × Node)}
    (h : ¬ (Node.group entries).IsDisguised) : referenceTarget? (nodesToJson entries) = none := by
  rw [Option.eq_none_iff_forall_ne_some]
  intro target htarget
  obtain ⟨key, hkey, rfl⟩ := referenceTarget?_nodesToJson_iff.1 htarget
  exact h (.group hkey)

mutual

theorem Node.reread_eq_self : ∀ (n : Node), (∀ m, n.Contains m → ¬ m.IsDisguised) → n.reread = n
  | .leaf (.text s), h => by
    have hnone : bracedTarget? s = none := bracedTarget?_eq_none_iff.2 fun target htarget heq =>
      h _ (.self _) (heq ▸ .text htarget)
    rw [Node.reread, hnone]
  | .leaf (.list _), _ | .leaf (.reference _), _ | .leaf (.number _), _ | .leaf (.flag _), _ => rfl
  | .group entries, h => by
    rw [Node.reread, referenceTarget?_nodesToJson_eq_none (h _ (.self _))]
    refine congrArg Node.group (rereadAll_eq_self entries ?_)
    rintro m ⟨key, n, hmem, hin⟩
    exact h m (.entry hmem hin)

theorem rereadAll_eq_self : ∀ (g : Group), (∀ m, g.Holds m → ¬ m.IsDisguised) → rereadAll g = g
  | [], _ => rfl
  | (key, node) :: rest, h => by
    have hnode : node.reread = node :=
      Node.reread_eq_self node fun m hin => h m ⟨key, node, .head _, hin⟩
    have hrest : rereadAll rest = rest := rereadAll_eq_self rest fun m ⟨k, n, hmem, hin⟩ =>
      h m ⟨k, n, .tail _ hmem, hin⟩
    rw [rereadAll, hnode, hrest]

end

/-! ## Leaf by leaf -/

/-- A leaf is as it was, or has become a reference. -/
def StaysOrRefers (l l' : Path × Leaf) : Prop :=
  l' = l ∨ l.2.isReference = false ∧ l'.2.isReference = true

mutual

theorem Node.leaves_reread : ∀ (n : Node) (before : Path),
    List.Forall₂ StaysOrRefers (n.leaves before) (n.reread.leaves before)
  | .leaf (.text s), before => by
    rw [Node.reread]
    cases bracedTarget? s with
    | some target => exact .cons (.inr ⟨rfl, rfl⟩) .nil
    | none => exact .cons (.inl rfl) .nil
  | .leaf (.list _), _ | .leaf (.reference _), _ | .leaf (.number _), _ | .leaf (.flag _), _ =>
    .cons (.inl rfl) .nil
  | .group entries, before => by
    rw [Node.reread]
    cases htarget : referenceTarget? (nodesToJson entries) with
    | some target =>
      obtain ⟨key, -, rfl⟩ := referenceTarget?_nodesToJson_iff.1 htarget
      exact .cons (.inr ⟨rfl, rfl⟩) .nil
    | none => exact leavesOf_rereadAll entries before

theorem leavesOf_rereadAll : ∀ (nodes : List (String × Node)) (before : Path),
    List.Forall₂ StaysOrRefers (leavesOf before nodes) (leavesOf before (rereadAll nodes))
  | [], _ => .nil
  | (key, node) :: rest, before =>
    List.rel_append (Node.leaves_reread node (before ++ [key])) (leavesOf_rereadAll rest before)

end

/-- A disguised node has other leaves after reading. -/
theorem Node.IsDisguised.leaves_ne {n : Node} (h : n.IsDisguised) (before : Path) :
    n.reread.leaves before ≠ n.leaves before := by
  cases h with
  | text htarget =>
    rw [Node.reread, bracedTarget?_eq_some_iff.2 ⟨rfl, htarget⟩]
    simp [Node.leaves]
  | group hkey =>
    rw [Node.reread, referenceTarget?_nodesToJson_iff.2 ⟨_, hkey, rfl⟩]
    simp [Node.leaves, leavesOf]

mutual

theorem Node.not_isDisguised : ∀ (n : Node) {before : Path},
    n.reread.leaves before = n.leaves before → ∀ m, n.Contains m → ¬ m.IsDisguised
  | .leaf v, before, h, m, hin => by
    cases hin
    exact fun hdisguised => hdisguised.leaves_ne before h
  | .group entries, before, h, m, hin => by
    have hself : ¬ (Node.group entries).IsDisguised :=
      fun hdisguised => hdisguised.leaves_ne before h
    cases hin with
    | self => exact hself
    | entry hmem hin =>
      rw [Node.reread, referenceTarget?_nodesToJson_eq_none hself] at h
      exact not_isDisguised_of_holds entries h m ⟨_, _, hmem, hin⟩

theorem not_isDisguised_of_holds : ∀ (g : Group) {before : Path},
    leavesOf before (rereadAll g) = leavesOf before g → ∀ m, g.Holds m → ¬ m.IsDisguised
  | [], _, _, _, ⟨_, _, hmem, _⟩ => nomatch hmem
  | (key, node) :: rest, before, h, m, ⟨k, n, hmem, hin⟩ => by
    -- each part has as many leaves as before, so the parts are equal one by one
    have hlength := (Node.leaves_reread node (before ++ [key])).length_eq.symm
    obtain ⟨hnode, hrest⟩ := List.append_inj h hlength
    rcases List.mem_cons.1 hmem with heq | hmem
    · cases heq
      exact Node.not_isDisguised node hnode m hin
    · exact not_isDisguised_of_holds rest hrest m ⟨k, n, hmem, hin⟩

end

/-- Leaves that are marked as before are as before. -/
theorem eq_of_staysOrRefers {leaves leaves' : List (Path × Leaf)}
    (h : List.Forall₂ StaysOrRefers leaves leaves')
    (hmarks : leaves'.map (·.2.isReference) = leaves.map (·.2.isReference)) : leaves' = leaves := by
  induction h with
  | nil => rfl
  | cons hl _ ih =>
    obtain ⟨hmark, hrest⟩ := List.cons.inj hmarks
    rcases hl with rfl | ⟨hno, hyes⟩
    · rw [ih hrest]
    · dsimp only at hmark
      rw [hno, hyes] at hmark
      cases hmark

/-! ## Trees that are built -/

/-- The names, rendered values and reference marks of all leaves in order. -/
def Group.listing (g : Group) : List (String × String × Bool) :=
  g.flatten.map fun l => (l.1, l.2.render, l.2.isReference)

/-- A tree that is built by inserting nodes and putting leaves at paths. -/
inductive Group.Built : Group → Prop
  | empty : Built []
  | leaf {g : Group} (key : String) (v : Leaf) : Built g → Built (g.insert key (.leaf v))
  | group {g child : Group} (key : String) : Built g → Built child →
      Built (g.insert key (.group child))
  | path {g : Group} (path : String) (v : Leaf) : Built g → Built (g.insertPath path v)

theorem nodesToJson_eq (g : Group) : nodesToJson g = Entries.mapValues Node.toJson g := by
  induction g with
  | nil => rfl
  | cons entry rest ih =>
    rw [nodesToJson, ih]
    rfl

theorem isPlain_toJson_iff {g : Group} : g.toJson.IsPlain ↔
    g.Distinct ∧ ∀ key n, (key, n) ∈ g → n.toJson.IsPlain := by
  rw [Group.toJson, Value.isPlain_object, nodesToJson_eq, Entries.Distinct, Entries.names_mapValues]
  refine and_congr_right fun _ => ⟨fun h key n hmem => ?_, fun h f hf => ?_⟩
  · exact h (key, n.toJson) (List.mem_map_of_mem hmem)
  · obtain ⟨⟨key, n⟩, hmem, rfl⟩ := List.mem_map.1 hf
    exact h key n hmem

theorem isPlain_insert {g : Group} {n : Node} (hg : g.toJson.IsPlain) (hn : n.toJson.IsPlain)
    (key : String) : (Group.toJson (g.insert key n)).IsPlain := by
  rw [isPlain_toJson_iff] at hg ⊢
  refine ⟨Entries.distinct_insert hg.1 key n, fun k m hmem => ?_⟩
  rcases Entries.mem_insert hmem with heq | hmem
  · cases heq
    exact hn
  · exact hg.2 k m hmem

theorem isPlain_toJson_group {g : Group} (h : g.toJson.IsPlain) :
    (Node.group g).toJson.IsPlain := by
  rw [Node.toJson]
  exact h

theorem isPlain_insertAt (v : Leaf) : ∀ (p : Path) {g : Group}, g.toJson.IsPlain →
    (Group.toJson (g.insertAt v p)).IsPlain
  | [], _, h => h
  | [last], _, h => isPlain_insert h (isPlain_toJson_leaf v) last
  | key :: next :: rest, g, h => by
    have hchild : (Group.toJson (g.child key)).IsPlain := by
      unfold Group.child
      split
      · next entries hget => exact (isPlain_toJson_iff.1 h).2 key _ (Entries.mem_of_get? hget)
      · exact isPlain_toJson_iff.2 ⟨List.nodup_nil, nofun⟩
    exact isPlain_insert h (isPlain_toJson_group (isPlain_insertAt v (next :: rest) hchild)) key

theorem Group.Built.isPlain {g : Group} (h : g.Built) : g.toJson.IsPlain := by
  induction h with
  | empty => exact isPlain_toJson_iff.2 ⟨List.nodup_nil, nofun⟩
  | leaf key v _ ih => exact isPlain_insert ih (isPlain_toJson_leaf v) key
  | group key _ _ ih ihchild => exact isPlain_insert ih (isPlain_toJson_group ihchild) key
  | path path v _ ih => exact isPlain_insertAt v _ ih

/-- Every tree that is built is read as some tree. -/
theorem Group.Built.read {g : Group} (h : g.Built) :
    Decoder.ofJson Decoder.group g.toJson = .ok (rereadAll g) := by
  have hvalue : Decoder.value g.toJson.draft = .ok (.object (nodesToJson g)) :=
    Decoder.rereads_value h.isPlain
  rw [Decoder.ofJson, Decoder.group_eq hvalue, Group.ofFields, nodesOfJson_nodesToJson_eq]
  rfl

/-- **Writing a tree and reading it keeps its list of names and values exactly if nothing in it is
disguised.** What is written is always read, and with as many leaves; without disguises it is read
as the tree itself. -/
theorem Group.Built.rewritten {g : Group} (h : g.Built) : ∃ g' : Group,
    Decoder.ofJson Decoder.group g.toJson = .ok g' ∧ g'.listing.length = g.listing.length ∧
    (g'.listing = g.listing ↔ ∀ n, g.Holds n → ¬ n.IsDisguised) ∧
    ((∀ n, g.Holds n → ¬ n.IsDisguised) → g' = g) := by
  have hleaves := leavesOf_rereadAll g []
  refine ⟨rereadAll g, h.read, ?_, ⟨fun heq => ?_, fun hnone => ?_⟩, rereadAll_eq_self g⟩
  · simpa [Group.listing, Group.flatten, Group.leaves] using hleaves.length_eq.symm
  · refine not_isDisguised_of_holds g (eq_of_staysOrRefers hleaves ?_)
    have hmarks := congrArg (List.map (·.2.2)) heq
    simpa [Group.listing, Group.flatten, Group.leaves, Function.comp_def] using hmarks
  · rw [rereadAll_eq_self g hnone]

/-- A font with a stack, a size and a reference. -/
def fontGroup : Group := [("font", .group [
  ("sans", .leaf (.list ["Inter", "sans-serif"])),
  ("size", .leaf (.number (.integer 16))),
  ("body", .leaf (.reference "font.sans"))])]

theorem fontGroup_built : fontGroup.Built :=
  .group "font" .empty (.leaf "body" _ (.leaf "size" _ (.leaf "sans" _ .empty)))

theorem Group.Built.rewritten_fontGroup : fontGroup.Built ∧
    Decoder.ofJson Decoder.group fontGroup.toJson = .ok fontGroup := by
  obtain ⟨g, hread, -, -, hself⟩ := Group.Built.rewritten fontGroup_built
  have hleaves : leavesOf [] (rereadAll fontGroup) = leavesOf [] fontGroup := rfl
  have hnone := not_isDisguised_of_holds fontGroup hleaves
  exact ⟨fontGroup_built, by rw [hread, hself hnone]⟩

/-- A text under a key of references, and a text in braces. -/
def linkGroup : Group := [
  ("link", .group [("ref", .leaf (.text "underline"))]),
  ("accent", .leaf (.text "\x7bcolor.primary\x7d"))]

theorem linkGroup_built : linkGroup.Built :=
  .leaf "accent" _ (.group "link" .empty (.leaf "ref" _ .empty))

theorem Group.Built.rewritten_linkGroup : linkGroup.Built ∧ ∃ g' : Group,
    Decoder.ofJson Decoder.group linkGroup.toJson = .ok g' ∧
    linkGroup.listing =
      [("link-ref", "underline", false), ("accent", "\x7bcolor.primary\x7d", false)] ∧
    g'.listing = [("link", "\x7bunderline\x7d", true), ("accent", "\x7bcolor.primary\x7d", true)] :=
  ⟨linkGroup_built, rereadAll linkGroup, linkGroup_built.read, by decide, by decide⟩

end DesignSystem.Token
