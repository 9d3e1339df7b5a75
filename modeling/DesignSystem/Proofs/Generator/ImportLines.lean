import DesignSystem.Generator.Platform
import DesignSystem.Proofs.Text.Split
import DesignSystem.Proofs.Types.FrameworkTypes

/-!
# The imports of a component

A source has its import lines together, in front of an empty line. What types need is imported only
for content on Vue.

* `importBlock_file`: the import lines of a source are read back from its text.
* `Vue.importBlock_source`, `Angular.importBlock_source`, `Compose.importBlock_source`,
  `Flutter.importBlock_source`: the import lines of components.
* `Platform.imports_iff`: which names of a framework a source imports.
-/

set_option autoImplicit false

namespace DesignSystem

/-! ## Import lines -/

/-- Whether a line imports something. -/
def isImportLine (line : String) : Bool := Text.startsWith "import " line

/-- The import lines of a source. They stand together, behind what may be the head of a file. -/
def importBlock (source : String) : List String :=
  ((Text.splitAtChar '\n' source).dropWhile (!isImportLine ·)).takeWhile isImportLine

/-- A single line that imports something. -/
structure IsImport (line : String) : Prop where
  isImportLine : isImportLine line = true
  notMem : '\n' ∉ line.toList

/-- A single line that imports nothing. -/
structure IsHead (line : String) : Prop where
  isImportLine : isImportLine line = false
  notMem : '\n' ∉ line.toList

theorem IsImport.append {path : String} (h : '\n' ∉ path.toList) :
    IsImport ("import " ++ path) where
  isImportLine := Text.startsWith_append _ _
  notMem := by
    rw [String.toList_append, List.mem_append, not_or]
    exact ⟨by decide, h⟩

/-- Applied to a literal this looks at characters that are given, and does not read them off it. -/
theorem IsImport.of_chars {cs : List Char} (h : '\n' ∉ cs) :
    IsImport (.ofList ('i' :: 'm' :: 'p' :: 'o' :: 'r' :: 't' :: ' ' :: cs)) := by
  have hline : String.ofList ('i' :: 'm' :: 'p' :: 'o' :: 'r' :: 't' :: ' ' :: cs) =
      "import " ++ .ofList cs := by
    simp only [← String.toList_inj, String.toList_append, String.toList_ofList]
    rfl
  rw [hline]
  exact .append (by rwa [String.toList_ofList])

theorem IsHead.of_head? {line : String} (hfirst : line.toList.head? ≠ some 'i')
    (h : '\n' ∉ line.toList) : IsHead line where
  isImportLine := Text.startsWith_of_head?_ne rfl hfirst
  notMem := h

theorem splitAtChar_file {front : List String} (hfront : ∀ line ∈ front, '\n' ∉ line.toList)
    (back : List String) :
    ∃ more, Text.splitAtChar '\n' (Text.file (front ++ "" :: back)) = front ++ "" :: more := by
  rw [Text.splitAtChar, Text.splitWhere, Text.toList_file (by simp)]
  induction front with
  | nil => exact ⟨_, rfl⟩
  | cons line front ih =>
    obtain ⟨hline, hfront⟩ := List.forall_mem_cons.1 hfront
    obtain ⟨more, hmore⟩ := ih hfront
    have hpiece : ∀ c ∈ line.toList, (c == '\n') = false := fun c hc =>
      beq_eq_false_iff_ne.2 fun heq => hline (heq ▸ hc)
    rw [List.cons_append, List.flatMap_cons, List.append_assoc, List.singleton_append,
      Text.splitList_append hpiece rfl, List.map_cons, hmore, String.ofList_toList]
    exact ⟨more, rfl⟩

/-- The import lines of a file are those that stand between its head and an empty line. -/
theorem importBlock_file {head imports : List String} (hhead : ∀ line ∈ head, IsHead line)
    (himports : ∀ line ∈ imports, IsImport line) (hne : imports ≠ []) (rest : List String) :
    importBlock (Text.file (head ++ imports ++ "" :: rest)) = imports := by
  have hlines : ∀ line ∈ head ++ imports, '\n' ∉ line.toList := List.forall_mem_append.2
    ⟨fun line hline => (hhead line hline).notMem, fun line hline => (himports line hline).notMem⟩
  obtain ⟨more, hmore⟩ := splitAtChar_file hlines rest
  obtain ⟨first, others, rfl⟩ := List.exists_cons_of_ne_nil hne
  have hstop : (first :: others ++ "" :: more).dropWhile (!isImportLine ·) =
      first :: others ++ "" :: more := by
    rw [List.cons_append, List.dropWhile_cons, (himports first List.mem_cons_self).isImportLine]
    rfl
  rw [importBlock, hmore, List.append_assoc, List.dropWhile_append_of_pos fun line hline => by
      rw [(hhead line hline).isImportLine]; rfl, hstop,
    List.takeWhile_append_of_pos fun line hline => (himports line hline).isImportLine]
  exact List.append_nil _

/-- The words of an import line of a script. -/
def importWords (line : String) : List String :=
  Text.splitWhere (fun c => c == ' ' || c == ',') line

/-- Whether an import line brings a name into a source: in Kotlin it has the path to the name, in
Dart the library that the name is from, and in TypeScript the name itself, as a word. -/
def Platform.bringsName : Platform → String → String → Bool
  | .compose, line, name => Text.endsWith ("." ++ name) line
  | .flutter, line, name => name == "File" && line == "import 'dart:io';"
  | _, line, name => (importWords line).contains name

/-- An import line brings none of the names that types take from a framework. -/
def Platform.BringsNone (platform : Platform) (line : String) : Prop :=
  ∀ name ∈ platform.frameworkNames, platform.bringsName line name = false

instance (platform : Platform) (line : String) : Decidable (platform.BringsNone line) :=
  inferInstanceAs (Decidable (∀ name ∈ platform.frameworkNames, _))

/-- A source imports a name. -/
def Platform.Imports (platform : Platform) (source name : String) : Prop :=
  ∃ line ∈ importBlock source, platform.bringsName line name = true

/-! ## The import lines of components -/

theorem forall_mem_ite {α : Type} {P : α → Prop} {condition : Prop} [Decidable condition]
    {yes no : List α} (hyes : ∀ x ∈ yes, P x) (hno : ∀ x ∈ no, P x) :
    ∀ x ∈ if condition then yes else no, P x := by
  split
  · exact hyes
  · exact hno

/-- The tag that the script of a component is in. -/
def Vue.openingTag (m : ComponentModel) : String :=
  let language := if m.typed then " lang=\"ts\"" else ""
  s!"<script setup{language}>"

theorem Vue.importBlock_source (m : ComponentModel) : importBlock (source m) = imports m := by
  have hlines : ∀ line ∈ imports m, IsImport line := by
    simp only [imports, List.forall_mem_append, List.forall_mem_singleton]
    exact ⟨⟨.of_chars (by decide), forall_mem_ite
      (List.forall_mem_singleton.2 (.of_chars (by decide))) (List.forall_mem_nil _)⟩,
      .of_chars (by decide)⟩
  have hhead : IsHead (openingTag m) := by
    unfold openingTag
    cases m.typed <;> exact .of_head? (by decide) (by decide)
  have hsource : ∃ rest, source m = Text.file ([openingTag m] ++ imports m ++ "" :: rest) :=
    ⟨_, by
      simp only [source, script, List.append_assoc, List.cons_append, List.nil_append]
      rfl⟩
  obtain ⟨rest, hrest⟩ := hsource
  rw [hrest]
  exact importBlock_file (List.forall_mem_singleton.2 hhead) hlines (by simp [imports]) rest

/-- The line that imports from the core package. -/
def Angular.coreImport (m : ComponentModel) : String :=
  "import \x7b " ++ Text.join ", " (coreImports m) ++ " \x7d from '@angular/core';"

theorem Angular.isImport_coreImport (m : ComponentModel) : IsImport (coreImport m) := by
  have hnames : '\n' ∉ (Text.join ", " (coreImports m)).toList := by
    unfold coreImports
    split <;> decide +kernel
  have hline : coreImport m = "import " ++
      ("\x7b " ++ Text.join ", " (coreImports m) ++ " \x7d from '@angular/core';") := by
    rw [coreImport, ← String.append_assoc, ← String.append_assoc]
    rfl
  rw [hline]
  refine .append ?_
  simp only [String.toList_append, List.mem_append, not_or]
  exact ⟨⟨by decide, hnames⟩, by decide⟩

theorem Angular.importBlock_source (m : ComponentModel) : importBlock (source m) = imports m := by
  have hlines : ∀ line ∈ imports m, IsImport line := by
    simp only [imports, List.forall_mem_append, List.forall_mem_singleton]
    exact ⟨⟨isImport_coreImport m, forall_mem_ite
      (List.forall_mem_singleton.2 (.of_chars (by decide))) (List.forall_mem_nil _)⟩,
      .of_chars (by decide)⟩
  have hsource : ∃ rest, source m = Text.file ([] ++ imports m ++ "" :: rest) :=
    ⟨_, by
      simp only [source, List.append_assoc, List.cons_append, List.nil_append]
      rfl⟩
  obtain ⟨rest, hrest⟩ := hsource
  rw [hrest]
  exact importBlock_file (List.forall_mem_nil _) hlines (by simp [imports]) rest

theorem Flutter.importBlock_source (m : ComponentModel) :
    importBlock (source m) = ["import 'package:flutter/material.dart';"] := by
  have hsource : ∃ rest, source m =
      Text.file ([] ++ ["import 'package:flutter/material.dart';"] ++ "" :: rest) :=
    ⟨_, by
      simp only [source, List.append_assoc, List.cons_append, List.nil_append]
      rfl⟩
  obtain ⟨rest, hrest⟩ := hsource
  rw [hrest]
  exact importBlock_file (List.forall_mem_nil _)
    (List.forall_mem_singleton.2 (.of_chars (by decide))) (List.cons_ne_nil _ _) rest

/-! ### Composable functions -/

namespace Compose

/-- The import lines of a composable function: those of what it uses, and that of the tokens. -/
def allImports (m : ComponentModel) : List String :=
  importLines (imports m) ++
    if (tokenModifiers m).isEmpty then [] else [s!"import {rootPackage}.theme.AppTokens"]

theorem mem_importLines_iff {names : List String} {line : String} :
    line ∈ importLines names ↔ ∃ name ∈ names, "import " ++ name = line := by
  simp only [importLines, List.mem_map, List.mem_eraseDups, List.mem_mergeSort]

/-- The ends of paths to the names that types are made of. -/
def typeEnds : List (List Char) :=
  [['.', 'C', 'o', 'l', 'o', 'r'],
    ['.', 'F', 'o', 'c', 'u', 's', 'R', 'e', 'q', 'u', 'e', 's', 't', 'e', 'r']]

/-- An import line that brings no name that types are made of. -/
structure IsOwnImport (line : String) : Prop extends IsImport line where
  bringsNone : Platform.compose.BringsNone line

/-- What starts with a character and stands at the end does not reach into a front without it. -/
theorem suffix_of_suffix_append {c : Char} {back front cs : List Char} (hc : c ∉ front)
    (h : c :: back <:+ front ++ cs) : c :: back <:+ cs := by
  rcases List.suffix_or_suffix_of_suffix h (List.suffix_append front cs) with hback | ⟨t, ht⟩
  · exact hback
  · cases t with
    | nil => exact ht ▸ List.suffix_rfl
    | cons d t =>
      obtain ⟨u, hu⟩ := h
      rw [← ht, ← List.append_assoc, List.append_left_inj] at hu
      obtain ⟨rfl, -⟩ := List.cons.inj ht
      exact absurd (hu ▸ List.mem_append_right u List.mem_cons_self) hc

theorem endsWith_import {back name : String} (hback : back.toList.head? = some '.')
    (h : Text.endsWith back ("import " ++ name) = true) : back.toList <:+ name.toList := by
  obtain ⟨rest, hrest⟩ := List.head?_eq_some_iff.1 hback
  rw [Text.endsWith_iff, String.toList_append] at h
  rw [hrest] at h ⊢
  exact suffix_of_suffix_append (by decide) h

/-- An import of a path that is given, which is compared character by character. -/
theorem IsOwnImport.of_chars {cs : List Char} (hfeed : '\n' ∉ cs)
    (hends : ∀ back ∈ typeEnds, ¬ back <:+ cs) : IsOwnImport ("import " ++ .ofList cs) where
  toIsImport := .append (by rwa [String.toList_ofList])
  bringsNone name hname := by
    have hend : ("." ++ name).toList ∈ typeEnds := by
      revert name
      decide
    refine Bool.eq_false_iff.2 fun h => ?_
    have hsuffix := endsWith_import (by simp) h
    rw [String.toList_ofList] at hsuffix
    exact hends _ hend hsuffix

theorem isOwnImport_imports (m : ComponentModel) :
    ∀ name ∈ imports m, IsOwnImport ("import " ++ name) := by
  have hmodifier : ∀ kind : ModifierKind, ∀ name ∈ kind.imports,
      IsOwnImport ("import " ++ name) := by
    intro kind
    cases kind with
    | background | padding => exact List.forall_mem_singleton.2 (.of_chars (by decide) (by decide))
    | radius =>
      exact List.forall_mem_cons.2 ⟨.of_chars (by decide) (by decide),
        List.forall_mem_singleton.2 (.of_chars (by decide) (by decide))⟩
  simp only [imports, List.forall_mem_append]
  refine ⟨⟨⟨⟨⟨⟨?base, ?role⟩, ?heading⟩, ?live⟩, ?click⟩, ?tokens⟩, ?text⟩
  case base =>
    simp only [baseImports, List.forall_mem_cons]
    refine ⟨?_, ?_, ?_, ?_, ?_, ?_, ?_, ?_, ?_, ?_, List.forall_mem_nil _⟩
    all_goals exact .of_chars (by decide) (by decide)
  case role =>
    exact forall_mem_ite (List.forall_mem_cons.2 ⟨.of_chars (by decide) (by decide),
      List.forall_mem_singleton.2 (.of_chars (by decide) (by decide))⟩) (List.forall_mem_nil _)
  case heading =>
    exact forall_mem_ite (List.forall_mem_singleton.2 (.of_chars (by decide) (by decide)))
      (List.forall_mem_nil _)
  case live =>
    exact forall_mem_ite (List.forall_mem_cons.2 ⟨.of_chars (by decide) (by decide),
      List.forall_mem_singleton.2 (.of_chars (by decide) (by decide))⟩) (List.forall_mem_nil _)
  case click =>
    exact forall_mem_ite (List.forall_mem_singleton.2 (.of_chars (by decide) (by decide)))
      (List.forall_mem_nil _)
  case tokens => exact List.forall_mem_flatMap.2 fun a _ => hmodifier a.1
  case text =>
    exact forall_mem_ite (List.forall_mem_nil _)
      (List.forall_mem_singleton.2 (.of_chars (by decide) (by decide)))

theorem isOwnImport (m : ComponentModel) : ∀ line ∈ allImports m, IsOwnImport line := by
  refine List.forall_mem_append.2 ⟨fun line hline => ?_, ?_⟩
  · obtain ⟨name, hname, rfl⟩ := mem_importLines_iff.1 hline
    exact isOwnImport_imports m name hname
  · have htokens : s!"import {rootPackage}.theme.AppTokens" =
        "import " ++ "com.example.designsystem.theme.AppTokens" := rfl
    rw [htokens]
    exact forall_mem_ite (List.forall_mem_nil _)
      (List.forall_mem_singleton.2 (.of_chars (by decide) (by decide)))

theorem isHead_package (m : ComponentModel) : IsHead s!"package {package m}" := by
  have hcategory : ∀ category : ComponentCategory, '\n' ∉ (Text.snake category.name).toList := by
    intro category
    cases category <;> decide
  have hline : s!"package {package m}" =
      "package com.example.designsystem.components." ++ Text.snake m.category.name := rfl
  rw [hline]
  refine .of_head? ?_ ?_
  · simp
  · rw [String.toList_append, List.mem_append, not_or]
    exact ⟨by simp, hcategory m.category⟩

theorem importBlock_source (m : ComponentModel) : importBlock (source m) = allImports m := by
  have hsource : ∃ rest, source m =
      Text.file ([s!"package {package m}", ""] ++ allImports m ++ "" :: rest) :=
    ⟨_, by
      simp only [source, allImports, List.append_assoc, List.cons_append, List.nil_append]
      rfl⟩
  have hhead : ∀ line ∈ [s!"package {package m}", ""], IsHead line :=
    List.forall_mem_cons.2 ⟨isHead_package m,
      List.forall_mem_singleton.2 (.of_head? (by decide) (by decide))⟩
  have hne : allImports m ≠ [] := by
    have hname : "androidx.compose.runtime.Composable" ∈ imports m := by
      simp [imports, baseImports]
    exact List.ne_nil_of_mem (List.mem_append_left _ (mem_importLines_iff.2 ⟨_, hname, rfl⟩))
  obtain ⟨rest, hrest⟩ := hsource
  rw [hrest]
  exact importBlock_file hhead (fun line hline => (isOwnImport m line hline).toIsImport) hne rest

end Compose

/-! ## Imported names -/

section
variable {m : ComponentModel} {name : String}

theorem Platform.not_imports_of_bringsNone {platform : Platform} {source : String}
    (h : ∀ line ∈ importBlock source, platform.BringsNone line)
    (hname : name ∈ platform.frameworkNames) : ¬ platform.Imports source name := by
  rintro ⟨line, hline, hbrings⟩
  exact Bool.false_ne_true ((h line hline name hname).symm.trans hbrings)

theorem contains_importWords {ns cs : List Char} :
    (importWords (.ofList cs)).contains (.ofList ns) =
      (Text.splitList (fun c => c == ' ' || c == ',') cs).contains ns := by
  rw [importWords, Text.splitWhere, String.toList_ofList, Bool.eq_iff_iff, List.contains_iff_mem,
    List.contains_iff_mem, List.mem_map]
  constructor
  · rintro ⟨piece, hpiece, heq⟩
    rw [String.ofList_inj] at heq
    exact heq ▸ hpiece
  · exact fun hmem => ⟨ns, hmem, rfl⟩

/-- Only content brings the import of a name on Vue. -/
theorem Vue.imports_iff (hname : name ∈ Platform.vue.frameworkNames) :
    Platform.vue.Imports (source m) name ↔
      name = "VNode" ∧ m.typed = true ∧ m.contentProps ≠ [] := by
  have hcomputed : Platform.vue.BringsNone "import \x7b computed \x7d from 'vue';" :=
    List.forall_mem_cons.2 ⟨contains_importWords.trans (by decide),
      List.forall_mem_singleton.2 (contains_importWords.trans (by decide))⟩
  have hcx : Platform.vue.BringsNone "import \x7b cx \x7d from '../../lib/cx';" :=
    List.forall_mem_cons.2 ⟨contains_importWords.trans (by decide),
      List.forall_mem_singleton.2 (contains_importWords.trans (by decide))⟩
  have hnode : ∀ name ∈ Platform.vue.frameworkNames, Platform.vue.bringsName
      "import type \x7b VNode \x7d from 'vue';" name = decide (name = "VNode") :=
    List.forall_mem_cons.2 ⟨contains_importWords.trans (by decide),
      List.forall_mem_singleton.2 (contains_importWords.trans (by decide))⟩
  have hcondition : (!m.contentProps.isEmpty && m.typed) = true ↔
      m.typed = true ∧ m.contentProps ≠ [] := by
    rw [Bool.and_eq_true, Bool.not_eq_true', List.isEmpty_eq_false_iff, and_comm]
  by_cases h : m.typed = true ∧ m.contentProps ≠ []
  · have himports : importBlock (source m) = ["import \x7b computed \x7d from 'vue';",
        "import type \x7b VNode \x7d from 'vue';", "import \x7b cx \x7d from '../../lib/cx';"] := by
      rw [importBlock_source, imports, if_pos (hcondition.2 h)]
      rfl
    rw [and_iff_left h, Platform.Imports, himports]
    simp only [List.exists_mem_cons_iff, hcomputed name hname, hcx name hname, hnode name hname,
      decide_eq_true_eq, List.not_mem_nil, false_and, exists_false, or_false, Bool.false_eq_true,
      false_or]
  · refine iff_of_false (Platform.not_imports_of_bringsNone ?_ hname) fun hall => h hall.2
    rw [importBlock_source, imports, if_neg (mt hcondition.1 h)]
    exact List.forall_mem_cons.2 ⟨hcomputed, List.forall_mem_singleton.2 hcx⟩

theorem Angular.not_imports (hname : name ∈ Platform.angular.frameworkNames) :
    ¬ Platform.angular.Imports (source m) name := by
  refine Platform.not_imports_of_bringsNone ?_ hname
  have hcore : Platform.angular.BringsNone (coreImport m) := by
    unfold coreImport coreImports
    split <;> decide +kernel
  have hlocale : Platform.angular.BringsNone localeImport :=
    List.forall_mem_cons.2 ⟨contains_importWords.trans (by decide),
      List.forall_mem_singleton.2 (contains_importWords.trans (by decide))⟩
  have hcx : Platform.angular.BringsNone "import \x7b cx \x7d from '../../lib/class-names';" :=
    List.forall_mem_cons.2 ⟨contains_importWords.trans (by decide),
      List.forall_mem_singleton.2 (contains_importWords.trans (by decide))⟩
  rw [importBlock_source]
  simp only [imports, List.forall_mem_append, List.forall_mem_singleton]
  exact ⟨⟨hcore, forall_mem_ite (List.forall_mem_singleton.2 hlocale) (List.forall_mem_nil _)⟩, hcx⟩

theorem Compose.not_imports (hname : name ∈ Platform.compose.frameworkNames) :
    ¬ Platform.compose.Imports (source m) name := by
  refine Platform.not_imports_of_bringsNone ?_ hname
  rw [importBlock_source]
  exact fun line hline => (isOwnImport m line hline).bringsNone

theorem Flutter.not_imports (hname : name ∈ Platform.flutter.frameworkNames) :
    ¬ Platform.flutter.Imports (source m) name := by
  refine Platform.not_imports_of_bringsNone ?_ hname
  rw [importBlock_source]
  decide +kernel

/-- No name of a framework is imported but the one for content on Vue. -/
theorem Platform.imports_iff {platform : Platform} (hname : name ∈ platform.frameworkNames) :
    platform.Imports (platform.generator.source m) name ↔
      platform = .vue ∧ name = "VNode" ∧ m.typed = true ∧ m.contentProps ≠ [] := by
  have hnone : ∀ {platform : Platform}, platform ≠ .vue →
      ¬ platform.Imports (platform.generator.source m) name →
      (platform.Imports (platform.generator.source m) name ↔
        platform = .vue ∧ name = "VNode" ∧ m.typed = true ∧ m.contentProps ≠ []) :=
    fun hvue hnot => iff_of_false hnot fun hall => hvue hall.1
  cases platform with
  | vue => exact (Vue.imports_iff hname).trans (and_iff_right rfl).symm
  | angular => exact hnone nofun (Angular.not_imports hname)
  | compose => exact hnone nofun (Compose.not_imports hname)
  | flutter => exact hnone nofun (Flutter.not_imports hname)
  | react | svelte | swiftUI | css | tailwind => cases hname

end

end DesignSystem
