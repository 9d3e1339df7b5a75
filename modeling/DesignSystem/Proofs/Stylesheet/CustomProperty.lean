import DesignSystem.Proofs.Token.Aliases
import DesignSystem.Stylesheet.CustomProperty
import Mathlib.Logic.Function.Iterate

/-!
# Custom properties of resolved tokens

A block of custom properties declares each token once, and a token that refers to another one as a
use of that token's property.

* `customProperty_injective`: two names have two properties.
* `rootBlock_lines`: which lines the block consists of.
* `iterate_substitute`: putting declared values in place of uses follows the references.
* `declares_of_resolve`: the uses in the block of a resolved list come down to the values of the
  tokens.
-/

set_option autoImplicit false

namespace DesignSystem.Stylesheet

/-! ## Names of properties -/

theorem escapeNameChar_of_isNameChar {c : Char} (h : isNameChar c) : escapeNameChar c = [c] :=
  if_pos h

theorem escapeNameChar_of_not {c : Char} (h : ¬ isNameChar c) : escapeNameChar c = ['\\', c] :=
  if_neg h

theorem flatMap_escapeNameChar_injective :
    ∀ {cs ds : List Char}, cs.flatMap escapeNameChar = ds.flatMap escapeNameChar → cs = ds
  | [], [], _ => rfl
  | [], d :: ds, h => by
    rw [List.flatMap_cons, escapeNameChar] at h
    split at h <;> cases h
  | c :: cs, [], h => by
    rw [List.flatMap_cons, escapeNameChar] at h
    split at h <;> cases h
  | c :: cs, d :: ds, h => by
    -- a backslash is special itself
    have hbackslash : ¬ isNameChar '\\' := by decide
    rw [List.flatMap_cons, List.flatMap_cons] at h
    by_cases hc : isNameChar c <;> by_cases hd : isNameChar d
    · rw [escapeNameChar_of_isNameChar hc, escapeNameChar_of_isNameChar hd] at h
      obtain ⟨rfl, hrest⟩ := List.cons.inj h
      rw [flatMap_escapeNameChar_injective hrest]
    · rw [escapeNameChar_of_isNameChar hc, escapeNameChar_of_not hd] at h
      exact absurd ((List.cons.inj h).1 ▸ hc) hbackslash
    · rw [escapeNameChar_of_not hc, escapeNameChar_of_isNameChar hd] at h
      exact absurd ((List.cons.inj h).1 ▸ hd) hbackslash
    · rw [escapeNameChar_of_not hc, escapeNameChar_of_not hd] at h
      obtain ⟨rfl, hrest⟩ := List.cons.inj (List.cons.inj h).2
      rw [flatMap_escapeNameChar_injective hrest]

theorem customProperty_injective : Function.Injective customProperty := by
  intro a b h
  have hchars := String.ofList_injective h
  simp only [List.cons.injEq, true_and] at hchars
  exact String.toList_inj.1 (flatMap_escapeNameChar_injective hchars)

/-! ## The block -/

theorem ofLayer_perm : ∀ ts : FlatTokens,
    (Token.Layer.all.flatMap fun layer => ts.ofLayer layer).Perm ts
  | [] => .nil
  | tok :: ts => by
    have ih := ofLayer_perm ts
    simp only [Token.Layer.all, List.flatMap_cons, List.flatMap_nil, List.append_nil,
      FlatTokens.ofLayer] at ih ⊢
    cases hl : tok.place.layer with
    | primitive => simpa [hl] using ih
    | semantic => simpa [hl] using List.perm_middle.trans (ih.cons tok)
    | component =>
      have hmiddle := @List.perm_middle _ tok (ts.filter (·.place.layer = .primitive) ++
        ts.filter (·.place.layer = .semantic)) (ts.filter (·.place.layer = .component))
      rw [List.append_assoc, List.append_assoc] at hmiddle
      simpa [hl] using hmiddle.trans (ih.cons tok)

/-- The declarations of the block, layer by layer. -/
def blockDeclarations (ts : FlatTokens) : List PropertyDeclaration :=
  Token.Layer.all.flatMap (declarations ts)

theorem blockDeclarations_perm (ts : FlatTokens) :
    (blockDeclarations ts).Perm (ts.map .ofToken) := by
  have h := (ofLayer_perm ts).map PropertyDeclaration.ofToken
  rwa [List.map_flatMap] at h

/-- The comment over the declarations of a layer. -/
def layerComment (ts : FlatTokens) (layer : Token.Layer) : List String :=
  if (declarations ts layer).isEmpty then [] else [s!"  /* {layer.name} */"]

/-- The block consists of a line for each token, comments for the layers, and a frame. -/
theorem rootBlock_lines (ts : FlatTokens) : ∃ lines, rootBlock ts = Text.file lines ∧
    lines.Perm ([":root \x7b", "\x7d"] ++ Token.Layer.all.flatMap (layerComment ts) ++
      ts.map fun tok => (PropertyDeclaration.ofToken tok).line) := by
  refine ⟨_, rfl, ?_⟩
  have hlayer : layerLines ts =
      fun layer => layerComment ts layer ++ (declarations ts layer).map (·.line) := by
    funext layer
    unfold layerLines layerComment
    cases declarations ts layer with
    | nil => rfl
    | cons d ds => rfl
  have hdeclared : (Token.Layer.all.flatMap fun layer => (declarations ts layer).map (·.line)).Perm
      (ts.map fun tok => (PropertyDeclaration.ofToken tok).line) := by
    have h := (blockDeclarations_perm ts).map PropertyDeclaration.line
    rwa [blockDeclarations, List.map_flatMap, List.map_map] at h
  have hlines : (Token.Layer.all.flatMap (layerLines ts)).Perm
      (Token.Layer.all.flatMap (layerComment ts) ++
        ts.map fun tok => (PropertyDeclaration.ofToken tok).line) := by
    rw [hlayer]
    exact (List.flatMap_append_perm _ _ _).symm.trans (hdeclared.append_left _)
  -- the closing brace stands last
  refine (List.perm_append_comm.trans ?_ : (_ ++ ["\x7d"]).Perm _)
  simpa using (hlines.cons ":root \x7b").cons "\x7d" |>.trans (.swap _ _ _)

/-! ## Substituting uses -/

/-- The value that a block declares for the property that is used, in place of the use. -/
def substitute (ds : List PropertyDeclaration) : PropertyValue → PropertyValue
  | .text s => .text s
  | .property name =>
    match ds.find? (fun d => customProperty d.name = customProperty name) with
    | some d => d.value
    | none => .property name

variable {flat : FlatTokens} {tok last : FlatToken}

theorem substitute_property {ds : List PropertyDeclaration} (hds : (ds.map (·.name)).Nodup)
    {d : PropertyDeclaration} (hd : d ∈ ds) : substitute ds (.property d.name) = d.value := by
  have hfind : ds.find? (fun d' => customProperty d'.name = customProperty d.name) = some d := by
    cases h : ds.find? (fun d' => customProperty d'.name = customProperty d.name) with
    | none => simpa using List.find?_eq_none.1 h d hd
    | some d' =>
      have hname : customProperty d'.name = customProperty d.name := by simpa using List.find?_some h
      rw [List.inj_on_of_nodup_map hds (List.mem_of_find?_eq_some h) hd
        (customProperty_injective hname)]
  rw [substitute, hfind]

theorem iterate_substitute_text (ds : List PropertyDeclaration) (n : Nat) (s : String) :
    (substitute ds)^[n] (.text s) = .text s := by
  induction n with
  | zero => rfl
  | succ n ih => rw [Function.iterate_succ_apply, substitute, ih]

/-- A reference is declared as a use, in whose place the declaration of the target comes. -/
theorem substitute_ofToken (hnames : (flat.map (·.name)).Nodup) (h : flat.target? tok = some last) :
    substitute (blockDeclarations flat) (PropertyDeclaration.ofToken tok).value =
      (PropertyDeclaration.ofToken last).value := by
  obtain ⟨name, href, hget⟩ := Option.bind_eq_some_iff.1 h
  obtain ⟨hmem, rfl⟩ := (Token.get?_eq_some_iff hnames).1 hget
  have hperm := blockDeclarations_perm flat
  have hdistinct : ((blockDeclarations flat).map (·.name)).Nodup := by
    refine (hperm.map _).nodup_iff.2 ?_
    rwa [List.map_map]
  have hvalue : (PropertyDeclaration.ofToken tok).value = .property last.name := by
    rw [PropertyDeclaration.ofToken, href]
    rfl
  have hdeclared : PropertyDeclaration.ofToken last ∈ blockDeclarations flat :=
    hperm.mem_iff.2 (List.mem_map_of_mem hmem)
  have hsub := substitute_property hdistinct hdeclared
  have hname : (PropertyDeclaration.ofToken last).name = last.name := rfl
  rw [hname] at hsub
  rw [hvalue, hsub]

/-- Substituting as often as there are references on the way comes to what its end declares. -/
theorem iterate_substitute (hnames : (flat.map (·.name)).Nodup) {n : Nat}
    (h : flat.following n tok = some last) :
    (substitute (blockDeclarations flat))^[n] (PropertyDeclaration.ofToken tok).value =
      (PropertyDeclaration.ofToken last).value := by
  induction n generalizing tok with
  | zero =>
    cases h
    rfl
  | succ n ih =>
    obtain ⟨u, hu, hlast⟩ := Option.bind_eq_some_iff.1 h
    rw [Function.iterate_succ_apply, substitute_ofToken hnames hu, ih hlast]

/-- The uses in the block of some tokens come down to the values of the tokens. -/
structure Declares (flat : FlatTokens) : Prop where
  /-- There is one line for each token, and no other line but comments and the frame. -/
  lines : ∃ lines, rootBlock flat = Text.file lines ∧
    lines.Perm ([":root \x7b", "\x7d"] ++ Token.Layer.all.flatMap (layerComment flat) ++
      flat.map fun tok => (PropertyDeclaration.ofToken tok).line)
  /-- No property is declared for two tokens. -/
  distinct : (flat.map fun tok => customProperty tok.name).Nodup
  /-- A reference is written as a use, of a property that the block declares. -/
  uses : ∀ tok ∈ flat, ∀ name, tok.reference = some name →
    (PropertyDeclaration.ofToken tok).value.render = s!"var({customProperty name})" ∧
      ∃ u ∈ flat, customProperty u.name = customProperty name
  /-- Substituting uses again and again ends with the value of the token itself. -/
  substituted : ∀ tok ∈ flat, ∃ n < flat.length, ∀ m ≥ n,
    (substitute (blockDeclarations flat))^[m] (PropertyDeclaration.ofToken tok).value =
      .text tok.value.render

theorem declares_of_resolve {t : Token.Layers} (h : t.resolve = .ok flat) : Declares flat where
  lines := rootBlock_lines flat
  distinct := by
    have hnames := (Token.nodup_names h).map customProperty_injective
    rwa [List.map_map] at hnames
  uses tok htok name href := by
    obtain ⟨u, hget, -⟩ := Token.get?_of_reference h htok href
    obtain ⟨hmem, rfl⟩ := (Token.get?_eq_some_iff (Token.nodup_names h)).1 hget
    refine ⟨?_, u, hmem, rfl⟩
    rw [PropertyDeclaration.ofToken, href]
    rfl
  substituted tok htok := by
    obtain ⟨n, hn, last, hlast, hnone, hway⟩ := Token.exists_following h htok
    obtain ⟨w, -, hw, hvalue⟩ := hway n (Nat.le_refl n)
    obtain rfl : w = last := Option.some.inj (hw.symm.trans hlast)
    have hend : (PropertyDeclaration.ofToken w).value = .text tok.value.render := by
      rw [PropertyDeclaration.ofToken, hnone, ← hvalue]
      rfl
    refine ⟨n, hn, fun m hm => ?_⟩
    rw [← Nat.sub_add_cancel hm, Function.iterate_add_apply,
      iterate_substitute (Token.nodup_names h) hlast, hend, iterate_substitute_text]

end DesignSystem.Stylesheet
