import DesignSystem.Proofs.Script.ObjectLiteral
import DesignSystem.Proofs.Text.Split
import DesignSystem.Proofs.Token.Resolution

/-!
# The exported token object

A token stands in the exported object under the keys of its path, unless another token stands at an
outer place of the path: one text takes the place of all that is below it.

* `TokenObject.scan_render`: a token object is written as the literal that it stands for.
* `TokenObject.textAt?_ofTexts`: texts at distinct places are all put into the object.
* `TokenObject.follow_toLiteral`, `TokenObject.mem_leaves`: keys lead to a text in the literal just
  if it was put there and none at an outer place.
* `exported?_tokenModule`: what is read from the exported module, with or without types.
* `exported_tokens`: the exported object holds the tokens that are not hidden, and these only.
-/

set_option autoImplicit false

namespace DesignSystem.Script

open Token (Path Layers)

namespace TokenObject

/-! ## What an object is written as -/

mutual

/-- An object of texts with the texts in quotes. -/
def quoted : TokenObject → TokenObject
  | place own fields => place (own.map Text.quotedSingle) (quotedFields fields)

def quotedFields : List (String × TokenObject) → List (String × TokenObject)
  | [] => []
  | (name, o) :: rest => (name, quoted o) :: quotedFields rest

end

mutual

/-- The literal that an object of texts stands for. -/
def toLiteral : TokenObject → Literal
  | place (some content) _ => .text content
  | place none fields => .object (fieldLiterals fields)

def fieldLiterals : List (String × TokenObject) → List (String × Literal)
  | [] => []
  | (name, o) :: rest => (name, toLiteral o) :: fieldLiterals rest

end

theorem quotedFields_eq : ∀ fields, quotedFields fields = Entries.mapValues quoted fields
  | [] => rfl
  | (name, o) :: rest => congrArg ((name, quoted o) :: ·) (quotedFields_eq rest)

theorem fieldLiterals_eq : ∀ fields, fieldLiterals fields = Entries.mapValues toLiteral fields
  | [] => rfl
  | (name, o) :: rest => congrArg ((name, toLiteral o) :: ·) (fieldLiterals_eq rest)

mutual

theorem scan_render : ∀ (o : TokenObject) (depth : Nat),
    scan .between (o.quoted.render depth).toList = some (o.toLiteral.lexemes, .between)
  | place (some content) _, _ => scan_quotedSingle content
  | place none fields, depth => by
    have hopen : scan .between ("\x7b".toList ++ ['\n']) = some ([.mark '\x7b'], .between) := rfl
    have hclose : scan .between ['\x7d'] = some ([.mark '\x7d'], .between) := rfl
    have hfields := scan_append hopen (scan_renderFields fields (depth + 1))
    have hend := scan_append (scan_spaces (2 * depth)) hclose
    have htext : ((place none fields).quoted.render depth).toList =
        "\x7b".toList ++ ['\n'] ++ (renderFields (depth + 1) (quotedFields fields)).flatMap
          (fun line => line.toList ++ ['\n']) ++ (List.replicate (2 * depth) ' ' ++ ['\x7d']) := by
      change (Text.unlines _).toList = _
      rw [Text.toList_unlines, List.flatMap_append, List.flatMap_singleton, String.toList_append,
        Text.toList_repeated]
      rfl
    rw [htext]
    exact scan_append hfields hend

theorem scan_renderFields : ∀ (fields : List (String × TokenObject)) (depth : Nat),
    scan .between ((renderFields depth (quotedFields fields)).flatMap
      fun line => line.toList ++ ['\n']) =
      some (Literal.fieldLexemes (fieldLiterals fields), .between)
  | [], _ => rfl
  | (name, o) :: rest, depth => by
    have hspace : scan .between [' '] = some ([], .between) := rfl
    have hcomma : scan .between [',', '\n'] = some ([.mark ','], .between) := rfl
    have hkey := scan_append (scan_append (scan_spaces (2 * depth)) (scan_key name)) hspace
    have hfield := scan_append (scan_append hkey (scan_render o depth)) hcomma
    have h := scan_append hfield (scan_renderFields rest depth)
    have hline : (Text.repeated ' ' (2 * depth) ++
        s!"{key name}: {render depth o.quoted},").toList ++ ['\n'] =
        List.replicate (2 * depth) ' ' ++ ((key name).toList ++ [':']) ++ [' '] ++
          (o.quoted.render depth).toList ++ [',', '\n'] := by
      simp [Text.toList_repeated]
      rfl
    rw [quotedFields, renderFields, List.flatMap_cons, hline]
    simpa [fieldLiterals, Literal.fieldLexemes] using h

end

/-! ## Putting texts into an object -/

/-- The object of texts with their paths. -/
def ofTexts (items : List (Path × String)) : TokenObject :=
  items.foldl (fun o item => o.insert item.2 item.1) empty

/-- The object of the tokens' values. -/
def ofValues (ts : FlatTokens) : TokenObject :=
  ofTexts (ts.map fun t => (t.place.path, t.value.render))

/-- The text at the place that keys lead to. -/
def textAt? : Path → TokenObject → Option String
  | [], place own _ => own
  | key :: path, place _ fields => (Entries.get? key fields).bind (textAt? path)

/-- No field has the name of another one next to it. -/
inductive Keyed : TokenObject → Prop
  | place {own : Option String} {fields : List (String × TokenObject)} :
      Entries.Distinct fields → (∀ f ∈ fields, Keyed f.2) → Keyed (.place own fields)

variable {o : TokenObject} {path p : Path} {content : String} {items : List (Path × String)}

theorem textAt?_empty : ∀ p : Path, textAt? p empty = none
  | [] => rfl
  | _ :: _ => rfl

theorem quoted_insert (content : String) : ∀ (path : Path) (o : TokenObject),
    (o.insert content path).quoted = o.quoted.insert (Text.quotedSingle content) path
  | [], place _ _ => rfl
  | name :: path, place own fields => by
    have hbelow : ((Entries.get? name fields).getD empty).quoted =
        (Entries.get? name (quotedFields fields)).getD empty := by
      rw [quotedFields_eq, Entries.get?_mapValues]
      cases Entries.get? name fields <;> rfl
    rw [insert, quoted, quotedFields_eq, Entries.mapValues_insert, quoted_insert content path,
      hbelow, ← quotedFields_eq]
    rfl

/-- The object that is written holds the values in quotes. -/
theorem ofTokens_eq (ts : FlatTokens) : ofTokens ts = (ofValues ts).quoted := by
  have hfold : ∀ o : TokenObject, ts.foldl (fun o t => o.insert (literal t) t.place.path) o.quoted =
      ((ts.map fun t => (t.place.path, t.value.render)).foldl
        (fun o item => o.insert item.2 item.1) o).quoted := by
    induction ts with
    | nil => exact fun o => rfl
    | cons t ts ih =>
      intro o
      rw [List.foldl_cons, List.map_cons, List.foldl_cons, ← ih, quoted_insert]
      rfl
  exact hfold empty

-- A path that is put in makes the places along it, and these have no text of their own.
theorem textAt?_insert (content : String) : ∀ (path p : Path) (o : TokenObject),
    textAt? p (o.insert content path) = if p = path then some content else textAt? p o
  | [], [], place _ _ => rfl
  | [], _ :: _, place _ _ => rfl
  | _ :: _, [], place _ _ => rfl
  | name :: path, key :: p, place own fields => by
    rw [insert, textAt?, textAt?, Entries.get?_insert]
    by_cases hkey : key = name
    · subst hkey
      rw [if_pos rfl, Option.bind_some, textAt?_insert content path p]
      cases Entries.get? key fields with
      | none => simp [textAt?_empty]
      | some below => simp
    · simp [hkey]

/-- Texts at distinct places are all put into the object. -/
theorem textAt?_ofTexts (h : (items.map (·.1)).Nodup) :
    textAt? p (ofTexts items) = some content ↔ (p, content) ∈ items := by
  have hfold : ∀ o : TokenObject, (∀ item ∈ items, textAt? item.1 o = none) →
      (textAt? p (items.foldl (fun o item => o.insert item.2 item.1) o) = some content ↔
        (p, content) ∈ items ∨ textAt? p o = some content) := by
    induction items with
    | nil => simp
    | cons item items ih =>
      intro o hfree
      obtain ⟨hnew, hnodup⟩ := List.nodup_cons.1 h
      have hrest : ∀ other ∈ items, textAt? other.1 (o.insert item.2 item.1) = none := by
        intro other hother
        have hne : other.1 ≠ item.1 := fun he => hnew (List.mem_map.2 ⟨other, hother, he⟩)
        rw [textAt?_insert, if_neg hne]
        exact hfree other (.tail _ hother)
      rw [List.foldl_cons, ih hnodup _ hrest, textAt?_insert, List.mem_cons]
      by_cases hp : p = item.1
      · have hnone : textAt? p o = none := hp ▸ hfree item (.head _)
        have hitem : (p, content) = item ↔ item.2 = content := by
          rw [hp, Prod.ext_iff]
          simp [eq_comm]
        rw [if_pos hp, hnone, hitem]
        simp [or_comm]
      · have hitem : (p, content) ≠ item := fun he => hp (congrArg Prod.fst he)
        simp [hp, hitem]
  rw [ofTexts, hfold empty fun _ _ => textAt?_empty _, textAt?_empty]
  simp

theorem Keyed.insert (content : String) : ∀ {path : Path} {o : TokenObject}, o.Keyed →
    (o.insert content path).Keyed
  | [], _, .place hdistinct hfields => .place hdistinct hfields
  | name :: path, _, .place hdistinct hfields => by
    refine .place (Entries.distinct_insert hdistinct _ _) fun f hf => ?_
    rcases Entries.mem_insert hf with rfl | hf
    · refine Keyed.insert content ?_
      cases hget : Entries.get? name _ with
      | none => exact .place .nil nofun
      | some below => exact hfields _ (Entries.mem_of_get? hget)
    · exact hfields f hf

theorem keyed_ofTexts (items : List (Path × String)) : (ofTexts items).Keyed := by
  have hfold : ∀ o : TokenObject, o.Keyed →
      (items.foldl (fun o item => o.insert item.2 item.1) o).Keyed := by
    induction items with
    | nil => exact fun o ho => ho
    | cons item items ih => exact fun o ho => ih _ (ho.insert item.2)
  exact hfold empty (.place .nil nofun)

/-! ## What keys lead to -/

theorem follow_field (key : String) (path : Path) (fields : List (String × TokenObject)) :
    (place none fields).toLiteral.follow (key :: path) =
      (Entries.get? key fields).bind fun below => below.toLiteral.follow path := by
  rw [toLiteral, Literal.follow, fieldLiterals_eq, Entries.get?_mapValues, Option.bind_map]
  rfl

theorem follow_toLiteral : ∀ (path : Path) (o : TokenObject),
    o.toLiteral.follow path = some (.text content) ↔
      textAt? path o = some content ∧ ∀ q, q <+: path → q ≠ path → textAt? q o = none
  | [], place own fields => by
    have hnone : ∀ q : Path, q <+: [] → q ≠ [] → textAt? q (place own fields) = none :=
      fun q hq hne => absurd (List.prefix_nil.1 hq) hne
    rw [and_iff_left hnone, Literal.follow, textAt?]
    cases own <;> simp [toLiteral]
  | key :: path, place (some own) fields => by
    -- the text at the outermost place is all that there is
    constructor
    · intro h
      cases h
    · rintro ⟨-, h⟩
      cases h [] List.nil_prefix (List.cons_ne_nil _ _).symm
  | key :: path, place none fields => by
    have houter :
        (∀ q, q <+: key :: path → q ≠ key :: path → textAt? q (place none fields) = none) ↔
        ∀ q, q <+: path → q ≠ path → (Entries.get? key fields).bind (textAt? q) = none := by
      constructor
      · intro h q hq hne
        exact h (key :: q) (List.cons_prefix_cons.2 ⟨rfl, hq⟩) (by simpa using hne)
      · intro h q hq hne
        cases q with
        | nil => rfl
        | cons first q =>
          obtain ⟨rfl, hbelow⟩ := List.cons_prefix_cons.1 hq
          exact h q hbelow (by simpa using hne)
    rw [follow_field, houter, textAt?]
    cases Entries.get? key fields with
    | none => simp
    | some below => simpa using follow_toLiteral path below

theorem fieldLeaves_eq : ∀ fields : List (String × Literal), Literal.fieldLeaves fields =
    fields.flatMap fun f => f.2.leaves.map fun leaf => (f.1 :: leaf.1, leaf.2)
  | [] => rfl
  | (key, l) :: rest => by rw [Literal.fieldLeaves, fieldLeaves_eq rest, List.flatMap_cons]

theorem leaves_place (fields : List (String × TokenObject)) :
    (place none fields).toLiteral.leaves = fields.flatMap fun f =>
      f.2.toLiteral.leaves.map fun leaf => (f.1 :: leaf.1, leaf.2) := by
  rw [toLiteral, Literal.leaves, fieldLeaves_eq, fieldLiterals_eq, Entries.mapValues,
    List.flatMap_map]

theorem mem_leaves (h : o.Keyed) : (path, content) ∈ o.toLiteral.leaves ↔
    o.toLiteral.follow path = some (.text content) := by
  induction h generalizing path with
  | @place own fields hdistinct _ ih =>
    cases own with
    | some own =>
      cases path <;> simp [toLiteral, Literal.leaves, Literal.follow, eq_comm]
    | none =>
      cases path with
      | nil =>
        rw [leaves_place]
        simp [toLiteral, Literal.follow]
      | cons key path =>
        rw [leaves_place, follow_field, List.mem_flatMap, Option.bind_eq_some_iff]
        constructor
        · rintro ⟨⟨name, below⟩, hf, hmem⟩
          obtain ⟨leaf, hleaf, he⟩ := List.mem_map.1 hmem
          cases he
          exact ⟨below, Entries.get?_of_mem hdistinct hf, (ih _ hf).1 hleaf⟩
        · rintro ⟨below, hget, hfollow⟩
          have hf := Entries.mem_of_get? hget
          exact ⟨_, hf, List.mem_map.2 ⟨_, (ih _ hf).2 hfollow, rfl⟩⟩

theorem nodup_leaves (h : o.Keyed) : (o.toLiteral.leaves.map (·.1)).Nodup := by
  induction h with
  | @place own fields hdistinct _ ih =>
    cases own with
    | some own => simp [toLiteral, Literal.leaves]
    | none =>
      rw [leaves_place, List.map_flatMap, List.nodup_flatMap]
      refine ⟨fun f hf => ?_, ?_⟩
      · rw [List.map_map]
        have hcons : ((fun leaf => leaf.1) ∘ fun leaf : Path × String => (f.1 :: leaf.1, leaf.2)) =
            (f.1 :: ·) ∘ (·.1) := rfl
        rw [hcons, ← List.map_map]
        exact (ih f hf).map fun _ _ he => (List.cons.inj he).2
      · -- the paths below two fields start with their names
        refine (List.pairwise_map.1 hdistinct).imp fun {f f'} hne => ?_
        refine List.disjoint_left.2 fun path hpath hpath' => ?_
        obtain ⟨_, hleaf, rfl⟩ := List.mem_map.1 hpath
        obtain ⟨_, hleaf', he⟩ := List.mem_map.1 hpath'
        obtain ⟨_, -, rfl⟩ := List.mem_map.1 hleaf
        obtain ⟨_, -, rfl⟩ := List.mem_map.1 hleaf'
        exact hne (List.cons.inj he).1.symm

end TokenObject

/-! ## The exported module -/

/-- What follows the object in the exported module. -/
def ending (typed : Bool) : String :=
  if typed then " as const;\n\nexport type Tokens = typeof tokens;\n" else ";\n"

def endingLexemes (typed : Bool) : List Lexeme :=
  if typed then [.word "as", .word "const", .mark ';', .word "export", .word "type", .word "Tokens",
    .mark '=', .word "typeof", .word "tokens", .mark ';']
  else [.mark ';']

theorem toList_tokenModule (typed : Bool) (ts : FlatTokens) : (tokenModule typed ts).toList =
    "export const tokens = ".toList ++ ((TokenObject.ofTokens ts).render 0).toList ++
      (ending typed).toList := by
  cases typed <;> simp [tokenModule, Text.file, Text.unlines, Text.join, ending] <;> rfl

/-- From the exported module the object of the values is read. -/
theorem exported?_tokenModule (typed : Bool) (ts : FlatTokens) :
    exported? "tokens" (tokenModule typed ts) = some (TokenObject.ofValues ts).toLiteral := by
  have hfront : scan .between "export const tokens = ".toList =
      some ([.word "export", .word "const", .word "tokens", .mark '='], .between) := by
    decide +kernel
  have hending : scan .between (ending typed).toList = some (endingLexemes typed, .between) := by
    cases typed <;> decide +kernel
  let value := (TokenObject.ofValues ts).toLiteral
  have hobject : scan .between ((TokenObject.ofTokens ts).render 0).toList =
      some (value.lexemes, .between) := by
    rw [TokenObject.ofTokens_eq]
    exact TokenObject.scan_render _ 0
  have hlexemes : lexemes? (tokenModule typed ts) = some (.word "export" :: .word "const" ::
      .word "tokens" :: .mark '=' :: (value.lexemes ++ endingLexemes typed)) := by
    rw [lexemes?, toList_tokenModule, scan_append (scan_append hfront hobject) hending]
    rfl
  have hvalue : readValue (value.lexemes ++ endingLexemes typed).length
      (value.lexemes ++ endingLexemes typed) = some (value, endingLexemes typed) :=
    readValue_lexemes _ _ (by simp)
  have hends : endsDeclaration (endingLexemes typed) = true := by cases typed <;> rfl
  rw [exported?, hlexemes]
  simp only [Option.bind_eq_bind, Option.bind_some, hvalue, hends, and_self, if_true]
  rfl

/-! ## Tokens in the object -/

/-- Another token stands at an outer place of the token's path. -/
def Hidden (ts : FlatTokens) (t : FlatToken) : Prop :=
  ∃ u ∈ ts, u.place.path <+: t.place.path ∧ u.place.path ≠ t.place.path

instance (ts : FlatTokens) (t : FlatToken) : Decidable (Hidden ts t) :=
  inferInstanceAs
    (Decidable (∃ u ∈ ts, u.place.path <+: t.place.path ∧ u.place.path ≠ t.place.path))

/-- The tokens that are not hidden. -/
def shown (ts : FlatTokens) : FlatTokens := ts.filter fun t => ¬ Hidden ts t

section
variable {layers : Layers} {ts : FlatTokens} (h : layers.resolve = .ok ts)
include h

theorem textAt?_ofValues (p : Path) (content : String) :
    TokenObject.textAt? p (TokenObject.ofValues ts) = some content ↔
      ∃ t ∈ ts, t.place.path = p ∧ t.value.render = content := by
  have hpaths : ((ts.map fun t => (t.place.path, t.value.render)).map (·.1)).Nodup := by
    rw [List.map_map]
    exact Token.nodup_paths h
  rw [TokenObject.ofValues, TokenObject.textAt?_ofTexts hpaths]
  simp

theorem textAt?_ofValues_eq_none (p : Path) :
    TokenObject.textAt? p (TokenObject.ofValues ts) = none ↔ ∀ t ∈ ts, t.place.path ≠ p := by
  constructor
  · intro hnone t ht hp
    have hsome := (textAt?_ofValues h p _).2 ⟨t, ht, hp, rfl⟩
    rw [hnone] at hsome
    cases hsome
  · intro hfree
    cases ho : TokenObject.textAt? p (TokenObject.ofValues ts) with
    | none => rfl
    | some content =>
      obtain ⟨t, ht, hp, -⟩ := (textAt?_ofValues h p content).1 ho
      exact absurd hp (hfree t ht)

/-- Keys lead to a text just if a token that is not hidden stands there. -/
theorem follow_ofValues (path : Path) (content : String) :
    (TokenObject.ofValues ts).toLiteral.follow path = some (.text content) ↔
      ∃ t ∈ shown ts, t.place.path = path ∧ t.value.render = content := by
  rw [TokenObject.follow_toLiteral, textAt?_ofValues h]
  simp only [textAt?_ofValues_eq_none h]
  constructor
  · rintro ⟨⟨t, ht, rfl, rfl⟩, houter⟩
    refine ⟨t, List.mem_filter.2 ⟨ht, decide_eq_true ?_⟩, rfl, rfl⟩
    rintro ⟨u, hu, hprefix, hne⟩
    exact houter _ hprefix hne u hu rfl
  · rintro ⟨t, ht, rfl, rfl⟩
    obtain ⟨ht, hshown⟩ := List.mem_filter.1 ht
    refine ⟨⟨t, ht, rfl, rfl⟩, fun q hq hne u hu hpath => ?_⟩
    exact of_decide_eq_true hshown ⟨u, hu, hpath ▸ hq, hpath ▸ hne⟩

theorem leaves_ofValues : (TokenObject.ofValues ts).toLiteral.leaves.Perm
    ((shown ts).map fun t => (t.place.path, t.value.render)) := by
  have hkeyed : (TokenObject.ofValues ts).Keyed := TokenObject.keyed_ofTexts _
  have hleaves := (TokenObject.nodup_leaves hkeyed).of_map
  have hshown : ((shown ts).map fun t => (t.place.path, t.value.render)).Nodup := by
    refine List.Nodup.of_map Prod.fst ?_
    rw [List.map_map]
    exact (Token.nodup_paths h).sublist (List.filter_sublist.map _)
  refine (List.perm_ext_iff_of_nodup hleaves hshown).2 fun ⟨path, content⟩ => ?_
  rw [TokenObject.mem_leaves hkeyed, follow_ofValues h]
  simp

/-- From the exported object the tokens that are not hidden are read, each once and under its path,
and nothing else. So no token is lost just if none is hidden. -/
theorem exported_tokens (typed : Bool) :
    ∃ o, exported? "tokens" (tokenModule typed ts) = some o ∧
      o.leaves.Perm ((shown ts).map fun t => (t.place.path, t.value.render)) ∧
      (∀ t ∈ ts, o.follow t.place.path = some (.text t.value.render) ↔ ¬ Hidden ts t) ∧
      (o.leaves.length = ts.length ↔ ∀ t ∈ ts, ¬ Hidden ts t) := by
  refine ⟨_, exported?_tokenModule typed ts, leaves_ofValues h, fun t ht => ?_, ?_⟩
  · rw [follow_ofValues h]
    constructor
    · rintro ⟨u, hu, hpath, -⟩
      obtain ⟨hu, hshown⟩ := List.mem_filter.1 hu
      obtain rfl := List.inj_on_of_nodup_map (Token.nodup_paths h) hu ht hpath
      exact of_decide_eq_true hshown
    · exact fun hshown => ⟨t, List.mem_filter.2 ⟨ht, decide_eq_true hshown⟩, rfl, rfl⟩
  · rw [(leaves_ofValues h).length_eq, List.length_map, shown, List.length_filter_eq_length_iff]
    simp only [decide_eq_true_eq]

end

/-- Two layers share a group, and some keys and values need quotes. -/
def scaleLayers : Layers where
  primitive := [("spacing", .group [("0.5", .leaf (.text "2px")), ("md", .leaf (.text "1rem"))]),
    ("font", .group [("body", .leaf (.text "'Inter', serif"))])]
  semantic := [("spacing", .group [("section", .leaf (.reference "md"))])]

def scaleTokens : FlatTokens := [
  ⟨⟨.primitive, ["spacing", "0.5"]⟩, "spacing-0.5", .text "2px", none⟩,
  ⟨⟨.primitive, ["spacing", "md"]⟩, "spacing-md", .text "1rem", none⟩,
  ⟨⟨.primitive, ["font", "body"]⟩, "font-body", .text "'Inter', serif", none⟩,
  ⟨⟨.semantic, ["spacing", "section"]⟩, "spacing-section", .text "1rem", some "spacing-md"⟩]

theorem exported_tokens_scaleLayers : scaleLayers.resolve = .ok scaleTokens ∧
    (∀ t ∈ scaleTokens, ¬ Hidden scaleTokens t) ∧
    ∃ o, exported? "tokens" (tokenModule true scaleTokens) = some o ∧ o.leaves.length = 4 ∧
      ∀ t ∈ scaleTokens, o.follow t.place.path = some (.text t.value.render) := by
  have h : scaleLayers.resolve = .ok scaleTokens := by decide +kernel
  have hshown : ∀ t ∈ scaleTokens, ¬ Hidden scaleTokens t := by decide +kernel
  obtain ⟨o, ho, -, hfollow, hlength⟩ := exported_tokens h true
  exact ⟨h, hshown, o, ho, hlength.2 hshown, fun t ht => (hfollow t ht).2 (hshown t ht)⟩

/-- A semantic color is called like the primitive group that it takes its value from. -/
def primaryLayers : Layers where
  primitive := [("color", .group [("primary", .group [("500", .leaf (.text "#3b82f6"))])])]
  semantic := [("color", .group [("primary", .leaf (.reference "color.primary.500"))])]

def primaryTokens : FlatTokens := [
  ⟨⟨.primitive, ["color", "primary", "500"]⟩, "color-primary-500", .text "#3b82f6", none⟩,
  ⟨⟨.semantic, ["color", "primary"]⟩, "color-primary", .text "#3b82f6", some "color-primary-500"⟩]

/-- The semantic color takes the place of the group: of the two tokens one is left. -/
theorem exported_tokens_primaryLayers : primaryLayers.resolve = .ok primaryTokens ∧
    ∀ typed, ∃ o, exported? "tokens" (tokenModule typed primaryTokens) = some o ∧
      o.leaves = [(["color", "primary"], "#3b82f6")] ∧ o.leaves.length ≠ primaryTokens.length ∧
      o.follow ["color", "primary", "500"] = none := by
  refine ⟨by decide +kernel, fun typed => ⟨_, exported?_tokenModule typed primaryTokens, ?_⟩⟩
  exact ⟨rfl, by decide, rfl⟩

end DesignSystem.Script
