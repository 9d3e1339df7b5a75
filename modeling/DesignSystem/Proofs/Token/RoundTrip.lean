import DesignSystem.Proofs.Json.Merged
import DesignSystem.Token.Encoding

/-!
# Token trees that were read are read again

* `Group.ofFields_toJson`: what a tree is written as is read as that tree.
* `Group.isPlain_toJson`: it is plain if what the tree was read from is.
-/

set_option autoImplicit false

namespace DesignSystem.Token

open Json (Value)

/-! ## What nodes are read from -/

theorem nodesOfJson_cons_eq_ok {path : Path} {key : String} {v : Value}
    {rest : List (String × Value)} {nodes : List (String × Node)}
    (h : nodesOfJson path ((key, v) :: rest) = .ok nodes) : ∃ node others,
      Node.ofJson (path ++ [key]) v = .ok node ∧ nodesOfJson path rest = .ok others ∧
      nodes = (key, node) :: others := by
  rw [nodesOfJson] at h
  obtain ⟨node, hnode, h⟩ := bind_eq_ok h
  obtain ⟨others, hothers, h⟩ := bind_eq_ok h
  cases h
  exact ⟨node, others, hnode, hothers, rfl⟩

theorem ofJson_object_eq_ok {path : Path} {fields : List (String × Value)} {n : Node}
    (h : Node.ofJson path (.object fields) = .ok n) :
    (∃ target, n = .leaf (.reference target)) ∨
    ∃ entries, n = .group entries ∧ nodesOfJson path fields = .ok entries ∧
      referenceTarget? fields = none := by
  rw [Node.ofJson] at h
  split at h
  · next target _ =>
    cases h
    exact .inl ⟨target, rfl⟩
  · next hnone =>
    obtain ⟨entries, hnodes, rfl⟩ := map_eq_ok h
    exact .inr ⟨entries, rfl, hnodes, hnone⟩

/-- Text is read from text only. -/
theorem eq_string_of_ofJson {path : Path} {v : Value} {s : String}
    (h : Node.ofJson path v = .ok (.leaf (.text s))) : v = .string s := by
  cases v with
  | string t =>
    rw [Node.ofJson] at h
    split at h
    · cases h
    · cases h
      rfl
  | array items =>
    rw [Node.ofJson] at h
    split at h
    · cases h
    · cases h
  | object fields =>
    rcases ofJson_object_eq_ok h with ⟨_, hn⟩ | ⟨_, hn, -⟩
    · cases hn
    · cases hn
  | _ =>
    rw [Node.ofJson] at h
    cases h

/-- A group of one text is read from one field. -/
theorem eq_singleton_of_nodesOfJson {path : Path} {fields : List (String × Value)} {key s : String}
    (h : nodesOfJson path fields = .ok [(key, .leaf (.text s))]) :
    fields = [(key, .string s)] := by
  match fields with
  | [] => cases h
  | (key', v) :: rest =>
    obtain ⟨node, others, hnode, hothers, heq⟩ := nodesOfJson_cons_eq_ok h
    obtain ⟨hfirst, rfl⟩ := List.cons.inj heq
    obtain ⟨rfl, rfl⟩ := Prod.mk.inj hfirst
    obtain rfl := eq_string_of_ofJson hnode
    cases rest with
    | nil => rfl
    | cons field rest =>
      obtain ⟨_, _, -, -, hcons⟩ := nodesOfJson_cons_eq_ok hothers
      cases hcons

/-! ## Leaves -/

theorem eq_text_of_toJson {n : Node} {s : String} (h : n.toJson = .string s) :
    n = .leaf (.text s) := by
  cases n with
  | group entries => cases h
  | leaf v =>
    cases v with
    | text t => rw [Value.string.inj h]
    | _ => cases h

theorem mapM_itemText?_string (texts : List String) :
    (texts.map Value.string).mapM itemText? = some texts := mapM_map_eq_pure fun _ _ => rfl

theorem ofJson_list (path : Path) (texts : List String) :
    Node.ofJson path (Leaf.list texts).toJson = .ok (.leaf (.list texts)) := by
  rw [Leaf.toJson, Node.ofJson, mapM_itemText?_string]

theorem ofJson_reference (path : Path) (target : String) :
    Node.ofJson path (Leaf.reference target).toJson = .ok (.leaf (.reference target)) := by
  rw [Leaf.toJson, Node.ofJson]
  rfl

theorem isPlain_toJson_leaf (v : Leaf) : (Node.leaf v).toJson.IsPlain := by
  rw [Node.toJson]
  cases v with
  | list items =>
    rw [Leaf.toJson, Value.isPlain_array]
    intro v hv
    obtain ⟨s, -, rfl⟩ := List.mem_map.1 hv
    trivial
  | reference target =>
    rw [Leaf.toJson, Value.isPlain_object]
    exact ⟨by simp [Entries.Distinct, Entries.names], by simp [Value.IsPlain]⟩
  | _ => trivial

/-! ## Groups -/

/-- The keys of an object that is a reference. -/
def IsReferenceKey (key : String) : Prop := key = "ref" ∨ key = "$ref"

theorem referenceTarget?_eq_some_iff {fields : List (String × Value)} {target : String} :
    referenceTarget? fields = some target ↔
      ∃ key, IsReferenceKey key ∧ fields = [(key, .string target)] := by
  constructor
  · intro h
    unfold referenceTarget? at h
    split at h
    · cases h
      exact ⟨_, .inl rfl, rfl⟩
    · cases h
      exact ⟨_, .inr rfl, rfl⟩
    · cases h
  · rintro ⟨key, rfl | rfl, rfl⟩ <;> rfl

/-- A group is written like a reference if its only entry is a text under a key of references. -/
theorem referenceTarget?_nodesToJson_iff {entries : List (String × Node)} {target : String} :
    referenceTarget? (nodesToJson entries) = some target ↔
      ∃ key, IsReferenceKey key ∧ entries = [(key, .leaf (.text target))] := by
  rw [referenceTarget?_eq_some_iff]
  refine exists_congr fun key => and_congr_right fun _ => ⟨fun h => ?_, ?_⟩
  · match entries with
    | [] => cases h
    | (key', node) :: rest =>
      obtain ⟨hfirst, hrest⟩ := List.cons.inj h
      obtain ⟨rfl, hnode⟩ := Prod.mk.inj hfirst
      obtain rfl := eq_text_of_toJson hnode
      cases rest with
      | nil => rfl
      | cons => cases hrest
  · rintro rfl
    rfl

/-- What a group is written as is no reference if what it was read from is none. -/
theorem referenceTarget?_nodesToJson {path : Path} {fields : List (String × Value)}
    {entries : List (String × Node)} (h : nodesOfJson path fields = .ok entries)
    (hnone : referenceTarget? fields = none) : referenceTarget? (nodesToJson entries) = none := by
  rw [Option.eq_none_iff_forall_ne_some]
  intro target htarget
  obtain ⟨key, hkey, rfl⟩ := referenceTarget?_nodesToJson_iff.1 htarget
  have hsome := referenceTarget?_eq_some_iff.2 ⟨key, hkey, eq_singleton_of_nodesOfJson h⟩
  rw [hnone] at hsome
  cases hsome

mutual

theorem Node.ofJson_toJson : ∀ (v : Value) {path : Path} {n : Node}, Node.ofJson path v = .ok n →
    ∀ path', Node.ofJson path' n.toJson = .ok n
  | .object fields, path, n, h, path' => by
    rcases ofJson_object_eq_ok h with ⟨target, rfl⟩ | ⟨entries, rfl, hnodes, hnone⟩
    · exact ofJson_reference path' target
    · rw [Node.toJson, Node.ofJson, referenceTarget?_nodesToJson hnodes hnone]
      dsimp only
      rw [nodesOfJson_nodesToJson fields hnodes path']
      rfl
  | .null, path, n, h, _ => by
    rw [Node.ofJson] at h
    cases h
  | .bool _, path, n, h, _ => by
    rw [Node.ofJson] at h
    cases h
    rfl
  | .number _, path, n, h, _ => by
    rw [Node.ofJson] at h
    cases h
    rfl
  | .string s, path, n, h, path' => by
    rw [Node.ofJson] at h
    split at h
    · cases h
      exact ofJson_reference path' _
    · next hnone =>
      cases h
      rw [Node.toJson, Leaf.toJson, Node.ofJson, hnone]
  | .array _, path, n, h, path' => by
    rw [Node.ofJson] at h
    split at h
    · cases h
      exact ofJson_list path' _
    · cases h

theorem nodesOfJson_nodesToJson : ∀ (fields : List (String × Value)) {path : Path}
    {nodes : List (String × Node)}, nodesOfJson path fields = .ok nodes →
    ∀ path', nodesOfJson path' (nodesToJson nodes) = .ok nodes
  | [], _, _, h, _ => by
    cases h
    rfl
  | (key, v) :: rest, path, nodes, h, path' => by
    obtain ⟨node, others, hnode, hothers, rfl⟩ := nodesOfJson_cons_eq_ok h
    rw [nodesToJson, nodesOfJson, Node.ofJson_toJson v hnode, nodesOfJson_nodesToJson rest hothers]
    rfl

end

theorem names_nodesToJson {path : Path} {fields : List (String × Value)}
    {nodes : List (String × Node)} (h : nodesOfJson path fields = .ok nodes) :
    Entries.names (nodesToJson nodes) = Entries.names fields := by
  induction fields generalizing nodes with
  | nil =>
    cases h
    rfl
  | cons field rest ih =>
    obtain ⟨node, others, -, hothers, rfl⟩ := nodesOfJson_cons_eq_ok h
    exact congrArg (field.1 :: ·) (ih hothers)

mutual

theorem Node.isPlain_toJson : ∀ (v : Value) {path : Path} {n : Node}, v.IsPlain →
    Node.ofJson path v = .ok n → n.toJson.IsPlain
  | .object fields, path, n, hv, h => by
    rcases ofJson_object_eq_ok h with ⟨target, rfl⟩ | ⟨entries, rfl, hnodes, -⟩
    · exact isPlain_toJson_leaf _
    · rw [Value.IsPlain] at hv
      have hdistinct : Entries.Distinct (nodesToJson entries) := by
        rw [Entries.Distinct, names_nodesToJson hnodes]
        exact hv.1
      exact ⟨hdistinct, arePlainFields_nodesToJson fields hv.2 hnodes⟩
  | .null, path, n, _, h => by
    rw [Node.ofJson] at h
    cases h
  | .bool _, path, n, _, h => by
    rw [Node.ofJson] at h
    cases h
    trivial
  | .number _, path, n, _, h => by
    rw [Node.ofJson] at h
    cases h
    trivial
  | .string _, path, n, _, h => by
    rw [Node.ofJson] at h
    split at h
    · cases h
      exact isPlain_toJson_leaf _
    · cases h
      exact isPlain_toJson_leaf _
  | .array _, path, n, _, h => by
    rw [Node.ofJson] at h
    split at h
    · cases h
      exact isPlain_toJson_leaf _
    · cases h

theorem arePlainFields_nodesToJson : ∀ (fields : List (String × Value)) {path : Path}
    {nodes : List (String × Node)}, Value.ArePlainFields fields →
    nodesOfJson path fields = .ok nodes → Value.ArePlainFields (nodesToJson nodes)
  | [], _, _, _, h => by
    cases h
    trivial
  | (key, v) :: rest, path, nodes, hfields, h => by
    obtain ⟨node, others, hnode, hothers, rfl⟩ := nodesOfJson_cons_eq_ok h
    exact ⟨Node.isPlain_toJson v hfields.1 hnode,
      arePlainFields_nodesToJson rest hfields.2 hothers⟩

end

/-- What a tree that was read is written as is read as that tree. -/
theorem Group.ofFields_toJson {fields : Entries Value} {g : Group}
    (h : Group.ofFields fields = .ok g) : Group.ofFields (nodesToJson g) = .ok g :=
  nodesOfJson_nodesToJson fields h []

theorem Group.isPlain_toJson {fields : Entries Value} {g : Group}
    (hfields : (Value.object fields).IsPlain) (h : Group.ofFields fields = .ok g) :
    g.toJson.IsPlain := by
  have hdistinct : Entries.Distinct (nodesToJson g) := by
    rw [Entries.Distinct, names_nodesToJson h]
    exact hfields.1
  exact ⟨hdistinct, arePlainFields_nodesToJson fields hfields.2 h⟩

end DesignSystem.Token
