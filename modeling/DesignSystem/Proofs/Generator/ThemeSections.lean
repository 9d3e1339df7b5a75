import DesignSystem.Generator.Tailwind
import DesignSystem.Proofs.Script.TokenObject
import DesignSystem.Proofs.Stylesheet.CustomProperty
import Mathlib.Data.List.Induction
import Mathlib.Data.List.Nodup

/-!
# The theme of a configuration

A configuration extends the theme by sections of entries, one for each token below a group that has
a section. A key joins what is left of the token's path, so tokens below two groups of one section
can get one key, and the later entry takes the place of the earlier one.

* `extension?`: the extension of the theme that a configuration holds.
* `extension?_configuration`: it is read as the sections that were written.
* `leaves_extension`: the entries of all sections are those of the tokens.
* `theme_of_resolve`: each token has one entry, and where two entries have one key.
-/

set_option autoImplicit false

namespace DesignSystem

open Script (Literal TokenObject)

/-- The extension of the theme that a configuration holds. -/
def Script.extension? (config : String) : Option Literal := do
  let (_, rest) ← Text.cut? "extend: " config
  let ls ← lexemes? rest
  let (value, _) ← readValue ls.length ls
  some value

namespace Tailwind

/-- A token that belongs in a section of the theme, under a key: it is not for components, and some
path is left below an outermost group that has the section. -/
structure Themed (tok : FlatToken) (group key : String) : Prop where
  layer : tok.place.layer ≠ .component
  path : ∃ outermost rest, tok.place.path = outermost :: rest ∧ rest ≠ [] ∧
    Tailwind.section? outermost = some group ∧ Token.flatName rest = key

variable {t : Token.Layers} {flat : FlatTokens} {tok u : FlatToken} {group key : String}

/-! ## Sections -/

theorem ofToken?_eq_some_iff {e : ThemeEntry} : ThemeEntry.ofToken? tok = some e ↔
    Themed tok e.group e.key ∧ e.token = tok.name := by
  constructor
  · intro h
    unfold ThemeEntry.ofToken? at h
    split at h
    · cases h
    · cases h
    · cases h
    · next outermost first rest hpath hlayer =>
      obtain ⟨group, hgroup, rfl⟩ := Option.map_eq_some_iff.1 h
      exact ⟨⟨hlayer, outermost, _, hpath, List.cons_ne_nil _ _, hgroup, rfl⟩, rfl⟩
  · obtain ⟨group, key, name⟩ := e
    rintro ⟨⟨hlayer, outermost, rest, hpath, hne, hgroup, rfl⟩, rfl⟩
    obtain ⟨first, rest, rfl⟩ := List.exists_cons_of_ne_nil hne
    unfold ThemeEntry.ofToken?
    rw [hpath]
    cases hl : tok.place.layer with
    | primitive | semantic => simpa using hgroup
    | component => exact absurd hl hlayer

theorem Themed.ofToken? (h : Themed tok group key) :
    ThemeEntry.ofToken? tok = some ⟨group, key, tok.name⟩ := ofToken?_eq_some_iff.2 ⟨h, rfl⟩

/-- Entries by sections. -/
def grouped (es : List ThemeEntry) : Entries (List ThemeEntry) :=
  es.foldl (fun groups e =>
    groups.insert e.group (((groups.get? e.group).getD []) ++ [e])) []

theorem grouped_concat (es : List ThemeEntry) (e : ThemeEntry) : grouped (es ++ [e]) =
    (grouped es).insert e.group ((((grouped es).get? e.group).getD []) ++ [e]) := by
  rw [grouped, List.foldl_append]
  rfl

theorem distinct_grouped (es : List ThemeEntry) : (grouped es).Distinct := by
  induction es using List.reverseRecOn with
  | nil => exact List.nodup_nil
  | append_singleton es e ih =>
    rw [grouped_concat]
    exact Entries.distinct_insert ih _ _

/-- A section comes to be with an entry, and only entries of its own stand in it. -/
theorem group_of_mem_grouped (es : List ThemeEntry) :
    ∀ s ∈ grouped es, (∃ e ∈ es, e.group = s.1) ∧ ∀ e ∈ s.2, e.group = s.1 := by
  induction es using List.reverseRecOn with
  | nil => exact nofun
  | append_singleton es e ih =>
    intro s hs
    rw [grouped_concat] at hs
    rcases Entries.mem_insert hs with rfl | hs
    · refine ⟨⟨e, by simp, rfl⟩, fun e' he' => ?_⟩
      rcases List.mem_append.1 he' with he' | he'
      · cases hget : (grouped es).get? e.group with
        | none => simp [hget] at he'
        | some before =>
          rw [hget] at he'
          exact (ih _ (Entries.mem_of_get? hget)).2 e' he'
      · rw [List.mem_singleton.1 he']
    · obtain ⟨⟨e', he', hgroup⟩, hall⟩ := ih s hs
      exact ⟨⟨e', List.mem_append_left _ he', hgroup⟩, hall⟩

theorem flatMap_insert_perm (e : ThemeEntry) (groups : Entries (List ThemeEntry)) :
    ((groups.insert e.group (((groups.get? e.group).getD []) ++ [e])).flatMap (·.2)).Perm
      (e :: groups.flatMap (·.2)) := by
  induction groups with
  | nil => exact .refl _
  | cons first rest ih =>
    obtain ⟨name, before⟩ := first
    rw [Entries.insert, Entries.get?]
    by_cases hname : name = e.group
    · rw [if_pos hname, if_pos hname, Option.getD_some, List.flatMap_cons, List.flatMap_cons,
        List.append_assoc]
      exact List.perm_middle
    · rw [if_neg hname, if_neg hname, List.flatMap_cons, List.flatMap_cons]
      exact (ih.append_left before).trans List.perm_middle

/-- No entry gets lost. -/
theorem grouped_perm (es : List ThemeEntry) : ((grouped es).flatMap (·.2)).Perm es := by
  induction es using List.reverseRecOn with
  | nil => exact .nil
  | append_singleton es e ih =>
    rw [grouped_concat]
    exact (flatMap_insert_perm e _).trans ((ih.cons e).trans (List.perm_append_singleton e es).symm)

/-! ## What is written -/

/-- An entry as an object: a text. -/
def entryObject (e : ThemeEntry) : String × TokenObject :=
  (e.key, .place (some (Stylesheet.use e.token)) [])

/-- A section as an object: its entries. -/
def sectionObject (s : String × List ThemeEntry) : String × TokenObject :=
  (s.1, .place none (s.2.map entryObject))

/-- The extension of the theme as an object: its sections. -/
def extension (ts : FlatTokens) : TokenObject :=
  .place none ((themeSections ts).map sectionObject)

/-- The lines of entries. -/
theorem renderFields_entries (es : List ThemeEntry) :
    TokenObject.renderFields 4 (TokenObject.quotedFields (es.map entryObject)) =
      es.map (·.line) := by
  induction es with
  | nil => rfl
  | cons e es ih =>
    have htext : TokenObject.render 4
        (TokenObject.quoted (.place (some (Stylesheet.use e.token)) [])) =
          Text.quotedSingle (Stylesheet.use e.token) := rfl
    rw [List.map_cons, List.map_cons, ← ih, entryObject, TokenObject.quotedFields,
      TokenObject.renderFields, htext]
    refine congrArg (· :: _) ?_
    unfold ThemeEntry.line
    simp only [String.append_assoc]
    rfl

/-- The groups that have a section have one that needs no quotes. -/
theorem key_of_section? {outermost : String} (h : section? outermost = some group) :
    TokenObject.key group = group := by
  unfold section? at h
  split at h <;> cases h <;> decide

theorem key_of_mem_themeSections {s : String × List ThemeEntry} (h : s ∈ themeSections flat) :
    TokenObject.key s.1 = s.1 := by
  obtain ⟨⟨e, he, hgroup⟩, -⟩ := group_of_mem_grouped _ s h
  obtain ⟨tok, -, htok⟩ := List.mem_filterMap.1 he
  obtain ⟨outermost, -, -, -, hsection, -⟩ := (ofToken?_eq_some_iff.1 htok).1.path
  rw [← hgroup]
  exact key_of_section? hsection

/-- The text of lines with a line feed behind each. -/
def textOf (lines : List String) : List Char := lines.flatMap fun line => line.toList ++ ['\n']

theorem textOf_append (lines more : List String) :
    textOf (lines ++ more) = textOf lines ++ textOf more := List.flatMap_append

/-- An object is written with its fields between two braces. -/
theorem toList_unlines_braces (lines : List String) (last : String) :
    (Text.unlines (["\x7b"] ++ lines ++ [last])).toList =
      "\x7b\n".toList ++ textOf lines ++ last.toList := by
  rw [Text.toList_unlines]
  rfl

/-- A section is written as the object of its entries, under its name. -/
theorem textOf_sectionLines {s : String × List ThemeEntry} (h : TokenObject.key s.1 = s.1) :
    textOf (sectionLines s) = textOf [Text.repeated ' ' (2 * 3) ++
      s!"{TokenObject.key s.1}: {TokenObject.render 3 (sectionObject s).2.quoted},"] := by
  have hobject : (TokenObject.render 3 (sectionObject s).2.quoted).toList =
      "\x7b\n".toList ++ textOf (s.2.map (·.line)) ++ "      \x7d".toList := by
    rw [← renderFields_entries, ← toList_unlines_braces]
    rfl
  have hline : Text.repeated ' ' (2 * 3) ++
      s!"{TokenObject.key s.1}: {TokenObject.render 3 (sectionObject s).2.quoted}," =
      "      " ++ s.1 ++ ": " ++ TokenObject.render 3 (sectionObject s).2.quoted ++ "," := by
    rw [h]
    simp only [String.append_assoc]
    rfl
  have hopen : s!"      {s.1}: \x7b" = "      " ++ s.1 ++ ": " ++ "\x7b" := by
    simp only [String.append_assoc]
    rfl
  rw [hline, sectionLines, hopen, textOf_append, textOf_append]
  simp [textOf, hobject]

theorem textOf_sections {sections : Entries (List ThemeEntry)}
    (h : ∀ s ∈ sections, TokenObject.key s.1 = s.1) : textOf (sections.flatMap sectionLines) =
      textOf (TokenObject.renderFields 3 (TokenObject.quotedFields (sections.map sectionObject))) := by
  induction sections with
  | nil => rfl
  | cons s sections ih =>
    obtain ⟨hs, hsections⟩ := List.forall_mem_cons.1 h
    rw [List.flatMap_cons, textOf_append, ih hsections, textOf_sectionLines hs, ← textOf_append]
    rfl

/-- The configuration up to the extension of the theme. -/
def front : String := "import type \x7b Config \x7d from 'tailwindcss';\n\nexport default \x7b\n" ++
  "  content: ['./src/**/*.\x7bts,tsx,html\x7d'],\n  theme: \x7b\n    "

/-- The configuration behind the extension of the theme. -/
def ending : String := ",\n  \x7d,\n\x7d satisfies Config;\n"

/-- The lexemes behind the extension of the theme. -/
def endingLexemes : List Script.Lexeme := [.mark ',', .mark '\x7d', .mark ',', .mark '\x7d',
  .word "satisfies", .word "Config", .mark ';']

theorem configuration_eq (ts : FlatTokens) : configuration ts =
    front ++ "extend: " ++ ((extension ts).quoted.render 2 ++ ending) := by
  have hobject : ((extension ts).quoted.render 2).toList =
      "\x7b\n".toList ++ textOf ((themeSections ts).flatMap sectionLines) ++ "    \x7d".toList := by
    rw [textOf_sections fun s hs => key_of_mem_themeSections hs, ← toList_unlines_braces]
    rfl
  have hfront : textOf ["import type \x7b Config \x7d from 'tailwindcss';", "",
      "export default \x7b", "  content: ['./src/**/*.\x7bts,tsx,html\x7d'],", "  theme: \x7b",
      "    extend: \x7b"] = (front ++ "extend: ").toList ++ "\x7b\n".toList := by
    decide +kernel
  have hending : textOf ["    \x7d,", "  \x7d,", "\x7d satisfies Config;"] =
      "    \x7d".toList ++ ending.toList := by
    decide +kernel
  apply String.toList_injective
  rw [configuration, Text.toList_file (by simp), ← textOf, textOf_append, textOf_append, hfront,
    hending]
  simp only [String.toList_append, hobject, List.append_assoc]

/-- The extension is read as the sections that were written. -/
theorem extension?_configuration (ts : FlatTokens) :
    Script.extension? (configuration ts) = some (extension ts).toLiteral := by
  have hfirst : ¬ "extend: ".toList <:+: front.toList ++ "extend: ".toList.dropLast := by
    decide +kernel
  have hcut : Text.cut? "extend: " (configuration ts) =
      some (front, (extension ts).quoted.render 2 ++ ending) := by
    rw [configuration_eq, Text.cut?, String.toList_append, String.toList_append, List.append_assoc,
      Text.cutList_append hfirst]
    simp
  have hending : Script.scan .between ending.toList = some (endingLexemes, .between) := by
    decide +kernel
  have hlexemes : Script.lexemes? ((extension ts).quoted.render 2 ++ ending) =
      some ((extension ts).toLiteral.lexemes ++ endingLexemes) := by
    rw [Script.lexemes?, String.toList_append,
      Script.scan_append (TokenObject.scan_render (extension ts) 2) hending]
  have hvalue := Script.readValue_lexemes endingLexemes (extension ts).toLiteral
    (n := ((extension ts).toLiteral.lexemes ++ endingLexemes).length) (by simp)
  simp only [Script.extension?, hcut, hlexemes, hvalue, Option.bind_eq_bind, Option.bind_some]

/-! ## The entries of the theme -/

/-- The entry with the section and the key before it. -/
def leafOf (e : ThemeEntry) : List String × String := ([e.group, e.key], Stylesheet.use e.token)

/-- The texts in the sections are those of the entries. -/
theorem leaves_extension (ts : FlatTokens) :
    (extension ts).toLiteral.leaves.Perm ((ts.filterMap ThemeEntry.ofToken?).map leafOf) := by
  have hentries : ∀ es : List ThemeEntry,
      (TokenObject.place none (es.map entryObject)).toLiteral.leaves =
        es.map fun e => ([e.key], Stylesheet.use e.token) := by
    intro es
    rw [TokenObject.leaves_place, List.flatMap_map, List.map_eq_flatMap]
    rfl
  have hleaves : (extension ts).toLiteral.leaves =
      ((themeSections ts).flatMap (·.2)).map leafOf := by
    rw [extension, TokenObject.leaves_place, List.flatMap_map, List.map_flatMap]
    refine List.flatMap_congr fun s hs => ?_
    have hgroup := (group_of_mem_grouped _ s hs).2
    rw [sectionObject, hentries, List.map_map]
    refine List.map_congr_left fun e he => ?_
    rw [leafOf, hgroup e he]
    rfl
  rw [hleaves]
  exact (grouped_perm _).map leafOf

theorem use_injective : Function.Injective Stylesheet.use := by
  intro a b h
  have hchars := congrArg String.toList h
  simp only [Stylesheet.use, String.toList_append, List.append_cancel_right_eq,
    List.append_cancel_left_eq] at hchars
  exact Stylesheet.customProperty_injective (String.toList_inj.1 hchars)

/-- The tokens of the entries are some of the tokens, in order. -/
theorem tokens_sublist : ∀ ts : FlatTokens,
    ((ts.filterMap ThemeEntry.ofToken?).map (·.token)).Sublist (ts.map (·.name))
  | [] => .slnil
  | tok :: ts => by
    have ih := tokens_sublist ts
    cases he : ThemeEntry.ofToken? tok with
    | none =>
      rw [List.filterMap_cons_none he]
      exact ih.cons _
    | some e =>
      rw [List.filterMap_cons_some he, List.map_cons, List.map_cons, (ofToken?_eq_some_iff.1 he).2]
      exact ih.cons_cons _

/-- The extension of the theme, and the lines of the stylesheet, that some tokens make. -/
structure HoldsTheme (flat : FlatTokens) (theme : Literal) (css : List String) : Prop where
  /-- The extension consists of sections under distinct names. -/
  sections : ∃ fields, theme = .object fields ∧ Entries.Distinct fields
  /-- The entries are those of the tokens that belong in a section, with their uses. -/
  entries : ∀ leaf, leaf ∈ theme.leaves ↔ ∃ tok ∈ flat, ∃ group key, Themed tok group key ∧
    leaf = ([group, key], Stylesheet.use tok.name)
  /-- A token has one entry. -/
  once : ∀ tok ∈ flat, ∀ group key, Themed tok group key →
    theme.leaves.filter (·.2 = Stylesheet.use tok.name) = [([group, key], Stylesheet.use tok.name)]
  /-- What is used is the property that the stylesheet declares for the token. -/
  declared : ∀ tok ∈ flat, ∃ property : String, Stylesheet.use tok.name = s!"var({property})" ∧
    s!"  {property}: {(Stylesheet.PropertyDeclaration.ofToken tok).value.render};" ∈ css
  /-- The keys of each section are distinct just if no two of its tokens have one key. -/
  keys : (theme.leaves.map (·.1)).Nodup ↔ ∀ tok ∈ flat, ∀ u ∈ flat, ∀ group key,
    Themed tok group key → Themed u group key → tok = u
  /-- Tokens of one outermost group never have one key. -/
  apart : ∀ tok ∈ flat, ∀ u ∈ flat, ∀ group key, Themed tok group key → Themed u group key →
    tok.place.path.head? = u.place.path.head? → tok = u

theorem mem_leaves_extension {leaf : List String × String} :
    leaf ∈ (extension flat).toLiteral.leaves ↔ ∃ tok ∈ flat, ∃ group key, Themed tok group key ∧
      leaf = ([group, key], Stylesheet.use tok.name) := by
  rw [(leaves_extension flat).mem_iff, List.mem_map]
  constructor
  · rintro ⟨e, he, rfl⟩
    obtain ⟨tok, htok, he⟩ := List.mem_filterMap.1 he
    obtain ⟨hthemed, hname⟩ := ofToken?_eq_some_iff.1 he
    exact ⟨tok, htok, e.group, e.key, hthemed, by rw [leafOf, hname]⟩
  · rintro ⟨tok, htok, group, key, hthemed, rfl⟩
    exact ⟨_, List.mem_filterMap.2 ⟨tok, htok, hthemed.ofToken?⟩, rfl⟩

/-- No two entries hold the same use. -/
theorem nodup_uses (h : (flat.map (·.name)).Nodup) :
    ((extension flat).toLiteral.leaves.map (·.2)).Nodup := by
  have huses := ((tokens_sublist flat).nodup h).map use_injective
  rw [List.map_map] at huses
  rw [((leaves_extension flat).map _).nodup_iff, List.map_map]
  exact huses

theorem filter_eq_singleton {α : Type} {l : List (α × String)} (hnodup : (l.map (·.2)).Nodup)
    {x : α × String} (hx : x ∈ l) : l.filter (·.2 = x.2) = [x] := by
  refine List.perm_singleton.1 ((List.perm_ext_iff_of_nodup (hnodup.of_map.filter _)
    (List.nodup_singleton x)).2 fun y => ?_)
  rw [List.mem_filter, List.mem_singleton, decide_eq_true_eq]
  constructor
  · rintro ⟨hy, heq⟩
    exact List.inj_on_of_nodup_map hnodup hy hx heq
  · rintro rfl
    exact ⟨hx, rfl⟩

/-- What is left of a path below its outermost group, and that group, make the name. -/
theorem name_of_themed (h : t.resolve = .ok flat) (htok : tok ∈ flat)
    (hthemed : Themed tok group key) :
    ∃ outermost, tok.place.path.head? = some outermost ∧ tok.name = outermost ++ "-" ++ key := by
  obtain ⟨outermost, rest, hpath, hne, -, rfl⟩ := hthemed.path
  obtain ⟨next, rest, rfl⟩ := List.exists_cons_of_ne_nil hne
  obtain ⟨leaf, -, hresolves⟩ := Token.exists_resolves h htok
  refine ⟨outermost, by rw [hpath]; rfl, ?_⟩
  rw [hresolves.name, ← hresolves.place, hpath, Token.flatName, Text.join_cons_cons]
  rfl

/-- **Every token of the theme has one entry, which uses its property; the keys of a section are
distinct just if no two of its tokens share what is left of the path.** -/
theorem theme_of_resolve (h : t.resolve = .ok flat) : ∃ config theme css,
    tokenFiles flat = [⟨"tailwind.config.ts", config⟩, ⟨"src/styles/tokens.css", Text.file css⟩] ∧
      Script.extension? config = some theme ∧ HoldsTheme flat theme css := by
  obtain ⟨css, hcss, hlines⟩ := Stylesheet.rootBlock_lines flat
  have hnames := Token.nodup_names h
  have hnodup := nodup_uses hnames
  refine ⟨configuration flat, (extension flat).toLiteral, css, by rw [tokenFiles, hcss],
    extension?_configuration flat, ?_, fun _ => mem_leaves_extension, ?_, ?_, ?_, ?_⟩
  · refine ⟨_, rfl, ?_⟩
    have hnames : Entries.names ((themeSections flat).map sectionObject) =
        Entries.names (themeSections flat) := List.map_map
    rw [TokenObject.fieldLiterals_eq, Entries.Distinct, Entries.names_mapValues, hnames]
    exact distinct_grouped _
  · intro tok htok group key hthemed
    exact filter_eq_singleton hnodup (mem_leaves_extension.2 ⟨tok, htok, group, key, hthemed, rfl⟩)
  · intro tok htok
    refine ⟨Stylesheet.customProperty tok.name, rfl, hlines.mem_iff.2 ?_⟩
    exact List.mem_append_right _ (List.mem_map_of_mem htok)
  · rw [List.nodup_map_iff_inj_on hnodup.of_map]
    constructor
    · intro hinj tok htok u hu group key hthemed hthemed'
      have heq := hinj _ (mem_leaves_extension.2 ⟨tok, htok, group, key, hthemed, rfl⟩) _
        (mem_leaves_extension.2 ⟨u, hu, group, key, hthemed', rfl⟩) rfl
      exact List.inj_on_of_nodup_map hnames htok hu (use_injective (congrArg Prod.snd heq))
    · intro hunique x hx y hy heq
      obtain ⟨tok, htok, group, key, hthemed, rfl⟩ := mem_leaves_extension.1 hx
      obtain ⟨u, hu, group', key', hthemed', rfl⟩ := mem_leaves_extension.1 hy
      simp only [List.cons.injEq, and_true] at heq
      obtain ⟨rfl, rfl⟩ := heq
      rw [hunique tok htok u hu group key hthemed hthemed']
  · intro tok htok u hu group key hthemed hthemed' hhead
    obtain ⟨outermost, houter, hname⟩ := name_of_themed h htok hthemed
    obtain ⟨outermost', houter', hname'⟩ := name_of_themed h hu hthemed'
    obtain rfl : outermost = outermost' := by
      rw [houter, houter'] at hhead
      exact Option.some.inj hhead
    exact List.inj_on_of_nodup_map hnames htok hu (hname.trans hname'.symm)

/-- Every token below the spacing and font groups has a key of its own. -/
theorem theme_of_resolve_scaleLayers : Script.scaleLayers.resolve = .ok Script.scaleTokens ∧
    ∃ config theme css, tokenFiles Script.scaleTokens =
        [⟨"tailwind.config.ts", config⟩, ⟨"src/styles/tokens.css", Text.file css⟩] ∧
      Script.extension? config = some theme ∧ (theme.leaves.map (·.1)).Nodup ∧
      theme.leaves.filter (·.2 = Stylesheet.use "spacing-0.5") =
        [(["spacing", "0.5"], "var(--spacing-0\\.5)")] := by
  have h : Script.scaleLayers.resolve = .ok Script.scaleTokens := by decide +kernel
  obtain ⟨config, theme, css, hfiles, htheme, hholds⟩ := theme_of_resolve h
  have hentry : ∀ tok ∈ Script.scaleTokens, ∀ u ∈ Script.scaleTokens,
      (ThemeEntry.ofToken? tok).map (fun e => (e.group, e.key)) =
        (ThemeEntry.ofToken? u).map (fun e => (e.group, e.key)) → tok = u := by
    decide +kernel
  refine ⟨h, config, theme, css, hfiles, htheme, hholds.keys.2 ?_, ?_⟩
  · intro tok htok u hu group key hthemed hthemed'
    refine hentry tok htok u hu ?_
    rw [hthemed.ofToken?, hthemed'.ofToken?]
    rfl
  · exact hholds.once ⟨⟨.primitive, ["spacing", "0.5"]⟩, "spacing-0.5", .text "2px", none⟩
      (by decide) "spacing" "0.5" ⟨by decide, "spacing", ["0.5"], rfl, by decide, rfl, rfl⟩

/-- Two groups for colors, each with a primary one. -/
def paletteLayers : Token.Layers where
  primitive := [("color", .group [("primary", .leaf (.text "#3b82f6"))]),
    ("colors", .group [("primary", .leaf (.text "#1d4ed8"))])]

/-- The resolved tokens of `paletteLayers`. -/
def paletteTokens : FlatTokens := [
  ⟨⟨.primitive, ["color", "primary"]⟩, "color-primary", .text "#3b82f6", none⟩,
  ⟨⟨.primitive, ["colors", "primary"]⟩, "colors-primary", .text "#1d4ed8", none⟩]

/-- Both groups have one section, in which the second color takes the place of the first. -/
theorem theme_of_resolve_paletteLayers : paletteLayers.resolve = .ok paletteTokens ∧
    ∃ theme, Script.extension? (configuration paletteTokens) = some theme ∧
      theme.leaves = [(["colors", "primary"], "var(--color-primary)"),
        (["colors", "primary"], "var(--colors-primary)")] ∧
      ¬ (theme.leaves.map (·.1)).Nodup := by
  refine ⟨by decide +kernel, _, extension?_configuration paletteTokens, by decide +kernel,
    by decide +kernel⟩

end Tailwind

end DesignSystem
