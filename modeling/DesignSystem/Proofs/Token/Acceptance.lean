import DesignSystem.Proofs.Schema.Decoder
import DesignSystem.Proofs.Text.Split
import DesignSystem.Proofs.Token.RoundTrip

/-!
# Which objects are token trees

`StandsFor v leaf`: the value `v` is written for `leaf`. `LeafAt fields path v`: from the fields of
an object the keys of `path` lead through groups to `v`, which is no group. `leafPositions` lists
these places in the order of the document.

* `bracedTarget?_eq_some_iff`, `referenceTarget?_eq_some_iff`: the two forms of references.
* `mem_leafPositions`: the list holds all places of leaves.
* `standsFor_leavesOf`: a tree that is read has its leaves in those places, and in that order.
* `nodes_firstOffence`: what is not read breaks off at the first place whose value is no leaf.
* `Decoder.group_reads`: a tree is read exactly if all places hold leaves.
-/

set_option autoImplicit false

namespace DesignSystem

namespace Token

open Json (Value)

/-! ## References -/

/-- The target of a reference in braces: one or more letters, digits, dots, hyphens and
underscores. -/
def IsTarget (s : String) : Prop := s ≠ "" ∧ ∀ c ∈ s.toList, isReferenceChar c = true

/-- A reference in braces. -/
def braced (target : String) : String := "\x7b" ++ target ++ "\x7d"

theorem bracedTarget?_eq_some_iff {s target : String} :
    bracedTarget? s = some target ↔ s = braced target ∧ IsTarget target := by
  have hvalid :
      (!target.isEmpty && target.toList.all isReferenceChar) = true ↔ IsTarget target := by
    simp [IsTarget]
  have heq : bracedTarget? s = (Text.dropFront? "\x7b" s).bind fun inner =>
      (Text.dropBack? "\x7d" inner).bind fun target =>
        if !target.isEmpty && target.toList.all isReferenceChar then some target else none := rfl
  rw [heq]
  constructor
  · intro h
    obtain ⟨inner, hinner, h⟩ := Option.bind_eq_some_iff.1 h
    obtain ⟨found, hfound, h⟩ := Option.bind_eq_some_iff.1 h
    split at h
    · next hchars =>
      cases h
      refine ⟨?_, hvalid.1 hchars⟩
      rw [Text.eq_append_of_dropFront? hinner, Text.eq_append_of_dropBack? hfound, braced,
        String.append_assoc]
    · cases h
  · rintro ⟨rfl, htarget⟩
    rw [braced, String.append_assoc, Text.dropFront?_append, Option.bind_some,
      Text.dropBack?_append, Option.bind_some, if_pos (hvalid.2 htarget)]

theorem bracedTarget?_eq_none_iff {s : String} :
    bracedTarget? s = none ↔ ∀ target, IsTarget target → s ≠ braced target := by
  rw [Option.eq_none_iff_forall_ne_some]
  exact forall_congr' fun target => by rw [Ne, bracedTarget?_eq_some_iff]; tauto

/-! ## Leaves -/

/-- A value that may be an item of a list, and its text. -/
inductive IsItem : Value → String → Prop
  | string (s : String) : IsItem (.string s) s
  | number (n : Json.Number) : IsItem (.number n) n.text

/-- The leaf that a value is written for. -/
inductive StandsFor : Value → Leaf → Prop
  | flag (b : Bool) : StandsFor (.bool b) (.flag b)
  | number (n : Json.Number) : StandsFor (.number n) (.number n)
  | text {s : String} : (∀ target, IsTarget target → s ≠ braced target) →
      StandsFor (.string s) (.text s)
  | braces {target : String} : IsTarget target →
      StandsFor (.string (braced target)) (.reference target)
  | link {key target : String} : IsReferenceKey key →
      StandsFor (.object [(key, .string target)]) (.reference target)
  | list {items : List Value} {texts : List String} : List.Forall₂ IsItem items texts →
      StandsFor (.array items) (.list texts)

/-- The value is not null, and no list with anything in it but strings and numbers. -/
def IsLegal (v : Value) : Prop :=
  v ≠ .null ∧ ∀ items, v = .array items → ∀ item ∈ items, ∃ text, IsItem item text

/-- Why a value is not legal. -/
inductive Offends : Value → String → Prop
  | null : Offends .null "null is not a token value"
  | list {items : List Value} {item : Value} : item ∈ items → (∀ text, ¬ IsItem item text) →
      Offends (.array items) "lists may only contain strings and numbers"

theorem itemText?_eq_some_iff {v : Value} {text : String} :
    itemText? v = some text ↔ IsItem v text := by
  constructor
  · intro h
    unfold itemText? at h
    split at h
    · cases h
      exact .string _
    · cases h
      exact .number _
    · cases h
  · rintro (_ | _) <;> rfl

theorem Offends.not_isLegal {v : Value} {reason : String} (h : Offends v reason) : ¬ IsLegal v := by
  rintro ⟨hnull, hlist⟩
  cases h with
  | null => exact hnull rfl
  | list hitem hnone =>
    obtain ⟨text, htext⟩ := hlist _ rfl _ hitem
    exact hnone text htext

theorem StandsFor.isLegal {v : Value} {leaf : Leaf} (h : StandsFor v leaf) : IsLegal v := by
  cases h with
  | list hitems =>
    refine ⟨nofun, ?_⟩
    rintro _ ⟨⟩ item hitem
    obtain ⟨text, -, htext⟩ := exists_of_forall₂ hitems.flip hitem
    exact ⟨text, htext⟩
  | flag | number | text | braces | link => exact ⟨nofun, nofun⟩

/-! ## Places of leaves -/

/-- An object that is a reference. -/
def isLink : List (String × Value) → Bool
  | [(key, .string _)] => key = "ref" || key = "$ref"
  | _ => false

/-- The value is not that of a group. -/
def IsLeafValue (v : Value) : Prop := ∀ fields, v = .object fields → isLink fields = true

/-- Keys lead from a value through groups to a value that is not that of a group. -/
inductive LeafIn : Value → Path → Value → Prop
  | here {v : Value} : IsLeafValue v → LeafIn v [] v
  | field {fields : List (String × Value)} {key : String} {v w : Value} {path : Path} :
      isLink fields = false → (key, v) ∈ fields → LeafIn v path w →
      LeafIn (.object fields) (key :: path) w

/-- Keys lead from the fields of an object to the value of a leaf. The object itself is a group,
whatever its fields are. -/
def LeafAt (fields : List (String × Value)) (path : Path) (w : Value) : Prop :=
  ∃ key rest v, path = key :: rest ∧ (key, v) ∈ fields ∧ LeafIn v rest w

mutual

/-- The places of leaves in a value at a path, in the order of the document. -/
def valuePositions (path : Path) : Value → List (Path × Value)
  | .object fields =>
    if isLink fields then [(path, .object fields)] else fieldPositions path fields
  | v => [(path, v)]

/-- The places of leaves in the fields of an object at a path. -/
def fieldPositions (path : Path) : List (String × Value) → List (Path × Value)
  | [] => []
  | (key, v) :: rest => valuePositions (path ++ [key]) v ++ fieldPositions path rest

end

/-- The places of leaves in an object, in the order of the document. -/
def leafPositions (fields : List (String × Value)) : List (Path × Value) := fieldPositions [] fields

theorem isLink_iff {fields : List (String × Value)} :
    isLink fields = true ↔ ∃ target, referenceTarget? fields = some target := by
  simp only [referenceTarget?_eq_some_iff]
  constructor
  · intro h
    unfold isLink at h
    split at h
    · exact ⟨_, _, by simpa [IsReferenceKey] using h, rfl⟩
    · cases h
  · rintro ⟨target, key, hkey, rfl⟩
    simpa [isLink, IsReferenceKey] using hkey

theorem isLink_eq_false_iff {fields : List (String × Value)} :
    isLink fields = false ↔ referenceTarget? fields = none := by
  rw [← Bool.not_eq_true, isLink_iff, ← Option.isSome_iff_exists, Option.not_isSome_iff_eq_none]

theorem isLeafValue_object_iff {fields : List (String × Value)} :
    IsLeafValue (.object fields) ↔ isLink fields = true :=
  ⟨fun h => h fields rfl, fun h _ heq => Value.object.inj heq ▸ h⟩

theorem valuePositions_of_isLeafValue {v : Value} (h : IsLeafValue v) (path : Path) :
    valuePositions path v = [(path, v)] := by
  cases v with
  | object fields => rw [valuePositions, if_pos (h fields rfl)]
  | _ => rfl

theorem valuePositions_group {fields : List (String × Value)} (h : isLink fields = false)
    (path : Path) : valuePositions path (.object fields) = fieldPositions path fields := by
  rw [valuePositions, if_neg (by rw [h]; nofun)]

theorem leafIn_of_isLeafValue {v w : Value} {path : Path} (h : IsLeafValue v) :
    LeafIn v path w ↔ path = [] ∧ w = v := by
  constructor
  · rintro (_ | ⟨hlink, -, -⟩)
    · exact ⟨rfl, rfl⟩
    · rw [h _ rfl] at hlink
      cases hlink
  · rintro ⟨rfl, rfl⟩
    exact .here h

theorem leafIn_group {fields : List (String × Value)} (h : isLink fields = false) {path : Path}
    {w : Value} : LeafIn (.object fields) path w ↔ LeafAt fields path w := by
  constructor
  · rintro (hleaf | ⟨-, hmem, hin⟩)
    · rw [hleaf fields rfl] at h
      cases h
    · exact ⟨_, _, _, rfl, hmem, hin⟩
  · rintro ⟨key, rest, v, rfl, hmem, hin⟩
    exact .field h hmem hin

theorem leafAt_cons {key : String} {v w : Value} {rest : List (String × Value)} {path : Path} :
    LeafAt ((key, v) :: rest) path w ↔
      (∃ q, path = key :: q ∧ LeafIn v q w) ∨ LeafAt rest path w := by
  constructor
  · rintro ⟨k, q, u, rfl, hmem, hin⟩
    rcases List.mem_cons.1 hmem with heq | hmem
    · cases heq
      exact .inl ⟨q, rfl, hin⟩
    · exact .inr ⟨k, q, u, rfl, hmem, hin⟩
  · rintro (⟨q, rfl, hin⟩ | ⟨k, q, u, rfl, hmem, hin⟩)
    · exact ⟨key, q, v, rfl, .head _, hin⟩
    · exact ⟨k, q, u, rfl, .tail _ hmem, hin⟩

theorem mem_valuePositions_leaf {v w : Value} {path p : Path} (h : IsLeafValue v) :
    (p, w) ∈ valuePositions path v ↔ ∃ q, p = path ++ q ∧ LeafIn v q w := by
  simp [valuePositions_of_isLeafValue h, leafIn_of_isLeafValue h]

mutual

theorem mem_valuePositions : ∀ (v : Value) {path p : Path} {w : Value},
    (p, w) ∈ valuePositions path v ↔ ∃ q, p = path ++ q ∧ LeafIn v q w
  | .object fields, path, p, w => by
    cases hlink : isLink fields with
    | true => exact mem_valuePositions_leaf (isLeafValue_object_iff.2 hlink)
    | false =>
      simp only [valuePositions_group hlink, leafIn_group hlink]
      exact mem_fieldPositions fields
  | .null, path, p, w | .bool _, path, p, w | .number _, path, p, w | .string _, path, p, w
  | .array _, path, p, w => mem_valuePositions_leaf fun _ heq => nomatch heq

theorem mem_fieldPositions : ∀ (fields : List (String × Value)) {path p : Path} {w : Value},
    (p, w) ∈ fieldPositions path fields ↔ ∃ q, p = path ++ q ∧ LeafAt fields q w
  | [], path, p, w => by simp [fieldPositions, LeafAt]
  | (key, v) :: rest, path, p, w => by
    rw [fieldPositions, List.mem_append, mem_valuePositions v, mem_fieldPositions rest]
    constructor
    · rintro (⟨q, rfl, hin⟩ | ⟨q, rfl, hat⟩)
      · exact ⟨key :: q, by simp, leafAt_cons.2 (.inl ⟨q, rfl, hin⟩)⟩
      · exact ⟨q, rfl, leafAt_cons.2 (.inr hat)⟩
    · rintro ⟨q, rfl, hat⟩
      rcases leafAt_cons.1 hat with ⟨q, rfl, hin⟩ | hat
      · exact .inl ⟨q, by simp, hin⟩
      · exact .inr ⟨q, rfl, hat⟩

end

/-- The list holds the places of leaves. -/
theorem mem_leafPositions {fields : List (String × Value)} {path : Path} {v : Value} :
    (path, v) ∈ leafPositions fields ↔ LeafAt fields path v := by
  rw [leafPositions, mem_fieldPositions]
  simp

/-! ## Reading leaf by leaf -/

/-- A leaf is in its place, and what is written there stands for it. -/
def IsReadAt (position : Path × Value) (l : Path × Leaf) : Prop :=
  l.1 = position.1 ∧ StandsFor position.2 l.2

mutual

theorem Node.standsFor_leaves : ∀ (v : Value) {path : Path} {n : Node},
    Node.ofJson path v = .ok n → List.Forall₂ IsReadAt (valuePositions path v) (n.leaves path)
  | .object fields, path, n, h => by
    rw [Node.ofJson] at h
    cases hlink : isLink fields with
    | true =>
      obtain ⟨target, htarget⟩ := isLink_iff.1 hlink
      obtain ⟨key, hkey, rfl⟩ := referenceTarget?_eq_some_iff.1 htarget
      rw [htarget] at h
      cases h
      rw [valuePositions_of_isLeafValue (isLeafValue_object_iff.2 hlink)]
      exact .cons ⟨rfl, .link hkey⟩ .nil
    | false =>
      rw [isLink_eq_false_iff.1 hlink] at h
      obtain ⟨entries, hnodes, rfl⟩ := map_eq_ok h
      rw [valuePositions_group hlink]
      exact standsFor_leavesOf fields hnodes
  | .bool b, path, n, h => by
    rw [Node.ofJson] at h
    cases h
    exact .cons ⟨rfl, .flag b⟩ .nil
  | .number m, path, n, h => by
    rw [Node.ofJson] at h
    cases h
    exact .cons ⟨rfl, .number m⟩ .nil
  | .string s, path, n, h => by
    rw [Node.ofJson] at h
    split at h
    · next target htarget =>
      obtain ⟨rfl, hvalid⟩ := bracedTarget?_eq_some_iff.1 htarget
      cases h
      exact .cons ⟨rfl, .braces hvalid⟩ .nil
    · next hnone =>
      cases h
      exact .cons ⟨rfl, .text (bracedTarget?_eq_none_iff.1 hnone)⟩ .nil
  | .array items, path, n, h => by
    rw [Node.ofJson] at h
    split at h
    · next texts htexts =>
      cases h
      have hitems := (forall₂_of_mapM_eq_some htexts).imp fun _ _ => itemText?_eq_some_iff.1
      exact .cons ⟨rfl, .list hitems⟩ .nil
    · cases h
  | .null, path, n, h => by
    rw [Node.ofJson] at h
    cases h

theorem standsFor_leavesOf : ∀ (fields : List (String × Value)) {path : Path}
    {nodes : List (String × Node)}, nodesOfJson path fields = .ok nodes →
    List.Forall₂ IsReadAt (fieldPositions path fields) (leavesOf path nodes)
  | [], _, _, h => by
    cases h
    exact .nil
  | (key, v) :: rest, path, nodes, h => by
    obtain ⟨node, others, hnode, hothers, rfl⟩ := nodesOfJson_cons_eq_ok h
    exact List.rel_append (Node.standsFor_leaves v hnode) (standsFor_leavesOf rest hothers)

end

/-- The first place whose value is no leaf, with what is wrong there. -/
def FirstOffence (positions : List (Path × Value)) (e : LeafError) : Prop :=
  ∃ before v after, positions = before ++ (e.path, v) :: after ∧
    (∀ position ∈ before, IsLegal position.2) ∧ Offends v e.problem.message

theorem FirstOffence.append {positions : List (Path × Value)} {e : LeafError}
    (h : FirstOffence positions e) (others : List (Path × Value)) :
    FirstOffence (positions ++ others) e := by
  obtain ⟨before, v, after, rfl, hlegal, hoffends⟩ := h
  exact ⟨before, v, after ++ others, by simp, hlegal, hoffends⟩

theorem FirstOffence.behind {positions others : List (Path × Value)} {e : LeafError}
    (h : FirstOffence positions e) (hlegal : ∀ position ∈ others, IsLegal position.2) :
    FirstOffence (others ++ positions) e := by
  obtain ⟨before, v, after, rfl, hbefore, hoffends⟩ := h
  exact ⟨others ++ before, v, after, by simp, List.forall_mem_append.2 ⟨hlegal, hbefore⟩, hoffends⟩

theorem isLegal_of_isReadAt {positions : List (Path × Value)} {leaves : List (Path × Leaf)}
    (h : List.Forall₂ IsReadAt positions leaves) : ∀ position ∈ positions, IsLegal position.2 := by
  intro position hmem
  obtain ⟨l, -, hread⟩ := exists_of_forall₂ h.flip hmem
  exact hread.2.isLegal

mutual

theorem Node.firstOffence : ∀ (v : Value) {path : Path} {e : LeafError},
    Node.ofJson path v = .error e → FirstOffence (valuePositions path v) e
  | .object fields, path, e, h => by
    rw [Node.ofJson] at h
    cases hlink : isLink fields with
    | true =>
      obtain ⟨target, htarget⟩ := isLink_iff.1 hlink
      rw [htarget] at h
      cases h
    | false =>
      rw [isLink_eq_false_iff.1 hlink] at h
      rw [valuePositions_group hlink]
      exact nodes_firstOffence fields (map_eq_error h)
  | .null, path, e, h => by
    rw [Node.ofJson] at h
    cases h
    exact ⟨[], .null, [], rfl, nofun, .null⟩
  | .array items, path, e, h => by
    rw [Node.ofJson] at h
    split at h
    · cases h
    · next hnone =>
      cases h
      obtain ⟨item, hitem, hnone⟩ := mapM_eq_none_iff.1 hnone
      refine ⟨[], .array items, [], rfl, nofun, .list hitem fun text htext => ?_⟩
      rw [itemText?_eq_some_iff.2 htext] at hnone
      cases hnone
  | .string s, path, e, h => by
    rw [Node.ofJson] at h
    split at h <;> cases h
  | .bool _, path, e, h | .number _, path, e, h => by
    rw [Node.ofJson] at h
    cases h

theorem nodes_firstOffence : ∀ (fields : List (String × Value)) {path : Path} {e : LeafError},
    nodesOfJson path fields = .error e → FirstOffence (fieldPositions path fields) e
  | [], _, _, h => by cases h
  | (key, v) :: rest, path, e, h => by
    rw [nodesOfJson] at h
    rw [fieldPositions]
    rcases bind_eq_error h with hnode | ⟨node, hnode, h⟩
    · exact (Node.firstOffence v hnode).append _
    · rcases bind_eq_error h with hothers | ⟨others, -, h⟩
      · exact (nodes_firstOffence rest hothers).behind
          (isLegal_of_isReadAt (Node.standsFor_leaves v hnode))
      · cases h

end

end Token

/-- The object that is there decides what is read. -/
theorem Decoder.group_eq {d : Json.Draft} {fields : List (String × Json.Value)}
    (h : value d = .ok (.object fields)) :
    group d = (Token.Group.ofFields fields).mapError .leaf := by
  obtain ⟨v, hv, hmerged⟩ := map_eq_ok h
  have hraw := mapError_eq_ok hv
  cases d with
  | object fs cut =>
    rw [group, h]
    rfl
  | array items cut =>
    rw [Json.Draft.value] at hraw
    obtain ⟨items, -, hcut⟩ := bind_eq_ok hraw
    split at hcut
    · cases hcut
    · cases hcut
      cases hmerged
  | valueless read skip => cases hraw
  | _ =>
    cases hraw
    cases hmerged

/-- **An object is a token tree exactly if all its leaves are legal.** If it is, the leaves of the
tree are what stands in the places of leaves, in the order of the document; if not, the error names
the first place whose value is no leaf, and says why. -/
theorem Decoder.group_reads {d : Json.Draft} {fields : List (String × Json.Value)}
    (h : value d = .ok (.object fields)) :
    ((∃ g, group d = .ok g) ↔ ∀ path v, Token.LeafAt fields path v → Token.IsLegal v) ∧
    (∀ e, group d = .error e → ∃ before path v after reason err,
      Token.leafPositions fields = before ++ (path, v) :: after ∧
      (∀ position ∈ before, Token.IsLegal position.2) ∧ Token.Offends v reason ∧
      e = .leaf err ∧ err.message = Text.join "." path ++ ": " ++ reason) ∧
    (∀ g, group d = .ok g →
      List.Forall₂ Token.IsReadAt (Token.leafPositions fields) (Token.Group.leaves g)) ∧
    ∀ path v, (path, v) ∈ Token.leafPositions fields ↔ Token.LeafAt fields path v := by
  rw [group_eq h]
  cases hread : Token.Group.ofFields fields with
  | ok g =>
    have hleaves := Token.standsFor_leavesOf fields hread
    refine ⟨iff_of_true ⟨g, rfl⟩ fun path v hat => ?_, nofun, ?_,
      fun _ _ => Token.mem_leafPositions⟩
    · exact Token.isLegal_of_isReadAt hleaves _ (Token.mem_leafPositions.2 hat)
    · rintro _ ⟨⟩
      exact hleaves
  | error err =>
    obtain ⟨before, v, after, hpositions, hlegal, hoffends⟩ := Token.nodes_firstOffence fields hread
    refine ⟨iff_of_false nofun fun hall => ?_, ?_, nofun, fun _ _ => Token.mem_leafPositions⟩
    · have hmem : (err.path, v) ∈ Token.leafPositions fields := by
        rw [Token.leafPositions, hpositions]
        simp
      exact hoffends.not_isLegal (hall _ _ (Token.mem_leafPositions.1 hmem))
    · rintro _ ⟨⟩
      exact ⟨before, err.path, v, after, _, err, hpositions, hlegal, hoffends, rfl, rfl⟩

/-- An object in which a group has an empty value, and a list after it another one. -/
def emptyGap : List (String × Json.Value) := [
  ("ref", .string "gap.sm"),
  ("gap", .object [("sm", .string "4px"), ("md", .null), ("lg", .object [("$ref", .string "sm")])]),
  ("fonts", .array [.string "Inter", .null])]

theorem Decoder.group_reads_emptyGap :
    value (Json.Value.object emptyGap).draft = .ok (.object emptyGap) ∧
    (¬ ∃ g, group (Json.Value.object emptyGap).draft = .ok g) ∧
    ∃ err, group (Json.Value.object emptyGap).draft = .error (.leaf err) ∧
      err.message = "gap.md: null is not a token value" := by
  have hvalue : value (Json.Value.object emptyGap).draft = .ok (.object emptyGap) := rfl
  refine ⟨hvalue, fun hread => ?_, ⟨["gap", "md"], .null⟩, rfl, by decide⟩
  have hat : Token.LeafAt emptyGap ["gap", "md"] .null :=
    ⟨"gap", ["md"], _, rfl, .tail _ (.head _), .field rfl (.tail _ (.head _)) (.here nofun)⟩
  exact ((group_reads hvalue).1.1 hread _ _ hat).1 rfl

end DesignSystem
