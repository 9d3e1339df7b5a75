import DesignSystem.Artifact
import Mathlib.Data.List.Induction
import Mathlib.Data.List.Nodup

/-!
# Files in manifests

* `nodup_paths_putAll`: no two files of a manifest have one path.
* `ofFiles_of_nodup`: files of different paths all stay.
* `get?_putAll`: under a path stands the last file that was added with it.
* `mem_ofFiles`, `mem_ofFiles_of_unique`: which files a manifest is made of, and which stay.
* `ofFiles_eq_iff`: a manifest is determined by the order of its paths and the last file of each.
* `putAll_ofFiles`: adding the files of a manifest adds the files that it was made of.

A manifest starts empty; files are pushed to it, and it is extended by manifests that are built in
the same way. `Edit.build edits` is the manifest of such a history, `Edit.pushes edits` the files
that are pushed in it, those of the manifests it is extended by included.

* `Edit.build_eq`: whatever the history, the manifest is that of the files pushed in it.
* `Edit.build_isMapOf`: so it holds each path once, where it first came, with its last file.
-/

set_option autoImplicit false

namespace DesignSystem

/-! ## Repeated items -/

section

variable {α : Type} [DecidableEq α]

/-- A further item counts unless it has been there. -/
theorem eraseDups_concat (xs : List α) (x : α) :
    (xs ++ [x]).eraseDups = if x ∈ xs then xs.eraseDups else xs.eraseDups ++ [x] := by
  rw [List.eraseDups_append]
  by_cases hx : x ∈ xs <;> simp [hx, List.removeAll, List.eraseDups_cons]

/-- Repetitions may be left out first. -/
theorem eraseDups_append_eraseDups (xs ys : List α) :
    (xs ++ ys.eraseDups).eraseDups = (xs ++ ys).eraseDups := by
  induction ys using List.reverseRecOn with
  | nil => rfl
  | append_singleton ys y ih =>
    rw [← List.append_assoc, eraseDups_concat (xs ++ ys), eraseDups_concat ys]
    by_cases hy : y ∈ ys
    · rw [if_pos hy, if_pos (List.mem_append_right _ hy), ih]
    · have hmem : y ∈ xs ++ ys.eraseDups ↔ y ∈ xs ++ ys := by simp
      rw [if_neg hy, ← List.append_assoc, eraseDups_concat, ih, if_congr hmem rfl rfl]

end

namespace Manifest

variable {m : Manifest} {file f : ManifestFile} {files : List ManifestFile} {path : String}

/-! ## The last file of a path -/

/-- The last of some files that has a path. -/
def lastOf? (path : String) (files : List ManifestFile) : Option ManifestFile :=
  files.reverse.find? (·.path = path)

theorem lastOf?_append (path : String) (files files' : List ManifestFile) :
    lastOf? path (files ++ files') = (lastOf? path files').or (lastOf? path files) := by
  rw [lastOf?, List.reverse_append, List.find?_append]
  rfl

theorem lastOf?_singleton (path : String) (file : ManifestFile) :
    lastOf? path [file] = if file.path = path then some file else none := by
  by_cases h : file.path = path <;> simp [lastOf?, h]

theorem of_lastOf?_eq_some (h : lastOf? path files = some f) : f ∈ files ∧ f.path = path :=
  ⟨List.mem_reverse.1 (List.mem_of_find?_eq_some h), by simpa using List.find?_some h⟩

theorem exists_lastOf? (hf : f ∈ files) :
    ∃ f' ∈ files, f'.path = f.path ∧ lastOf? f.path files = some f' := by
  cases hlast : lastOf? f.path files with
  | none => simpa using List.find?_eq_none.1 hlast f (List.mem_reverse.2 hf)
  | some f' => exact ⟨f', (of_lastOf?_eq_some hlast).1, (of_lastOf?_eq_some hlast).2, rfl⟩

/-! ## Adding files -/

theorem get?_put (file : ManifestFile) (path : String) :
    ∀ m : Manifest, get? path (put file m) = if file.path = path then some file else get? path m
  | [] => by
    rw [put, get?, List.find?_cons, List.find?_nil]
    by_cases h : file.path = path <;> simp [h, get?]
  | f :: rest => by
    have ih := get?_put file path rest
    unfold get? at ih ⊢
    rw [put]
    split
    · next hf =>
      rw [List.find?_cons, List.find?_cons, hf]
      by_cases h : file.path = path <;> simp [h]
    · next hf =>
      rw [List.find?_cons, List.find?_cons, ih]
      by_cases h : f.path = path
      · subst h
        simp [Ne.symm hf]
      · simp [h]

theorem putAll_append (m : Manifest) (files files' : List ManifestFile) :
    m.putAll (files ++ files') = (m.putAll files).putAll files' := List.foldl_append

/-- Under a path stands the last file that was added with it. -/
theorem get?_putAll (path : String) : ∀ (files : List ManifestFile) (m : Manifest),
    get? path (m.putAll files) = (lastOf? path files).or (get? path m)
  | [], _ => rfl
  | file :: files, m => by
    have ih := get?_putAll path files (put file m)
    rw [get?_put] at ih
    rw [← List.singleton_append, lastOf?_append, lastOf?_singleton, Option.or_assoc]
    refine ih.trans (congrArg _ ?_)
    by_cases h : file.path = path <;> simp [h]

theorem paths_put (file : ManifestFile) : ∀ m : Manifest,
    paths (put file m) = if file.path ∈ paths m then paths m else paths m ++ [file.path]
  | [] => rfl
  | f :: rest => by
    have ih := paths_put file rest
    unfold paths at ih ⊢
    rw [put]
    split
    · next hf => simp [hf]
    · next hf =>
      rw [List.map_cons, ih, List.map_cons]
      by_cases h : file.path ∈ rest.map (·.path)
      · simp [h]
      · simp [h, Ne.symm hf]

theorem nodup_paths_put (file : ManifestFile) (h : m.paths.Nodup) : (put file m).paths.Nodup := by
  rw [paths_put]
  split
  · exact h
  · next hnew => exact List.nodup_append.2 ⟨h, by simp, fun _ ha _ hb hab =>
      hnew (List.mem_singleton.1 hb ▸ hab ▸ ha)⟩

theorem nodup_paths_putAll : ∀ (files : List ManifestFile) {m : Manifest}, m.paths.Nodup →
    (m.putAll files).paths.Nodup
  | [], _, h => h
  | file :: files, _, h => nodup_paths_putAll files (nodup_paths_put file h)

theorem nodup_paths_ofFiles (files : List ManifestFile) : (ofFiles files).paths.Nodup :=
  nodup_paths_putAll files .nil

/-- A file of a new path comes last. -/
theorem put_of_notMem : ∀ {m : Manifest}, file.path ∉ m.paths → put file m = m ++ [file]
  | [], _ => rfl
  | f :: rest, h => by
    obtain ⟨hf, hrest⟩ := not_or.1 (mt List.mem_cons.2 h)
    rw [put, if_neg (Ne.symm hf), put_of_notMem hrest, List.cons_append]

theorem putAll_of_nodup : ∀ {files : List ManifestFile} {m : Manifest}, (paths (m ++ files)).Nodup →
    m.putAll files = m ++ files
  | [], m, _ => (List.append_nil m).symm
  | file :: files, m, h => by
    have hnew : file.path ∉ m.paths := by
      rw [paths, List.map_append] at h
      exact fun hmem => (List.nodup_append.1 h).2.2 _ hmem _ List.mem_cons_self rfl
    change (put file m).putAll files = _
    rw [put_of_notMem hnew, putAll_of_nodup (by simpa using h)]
    simp

/-- Files of different paths stay as they are. -/
theorem ofFiles_of_nodup (h : (paths files).Nodup) : ofFiles files = files :=
  putAll_of_nodup (m := []) h

/-! ## Which files there are -/

theorem mem_iff_get? (h : m.paths.Nodup) : f ∈ m ↔ m.get? f.path = some f := by
  constructor
  · intro hf
    cases hget : m.get? f.path with
    | none => simpa using List.find?_eq_none.1 hget f hf
    | some f' =>
      have hpath : f'.path = f.path := by simpa using List.find?_some hget
      rw [List.inj_on_of_nodup_map h (List.mem_of_find?_eq_some hget) hf hpath]
  · exact List.mem_of_find?_eq_some

theorem get?_ofFiles (files : List ManifestFile) (path : String) :
    get? path (ofFiles files) = lastOf? path files :=
  (get?_putAll path files []).trans (Option.or_none)

/-- A file is in a manifest if it is the last one of its path. -/
theorem mem_ofFiles : f ∈ ofFiles files ↔ lastOf? f.path files = some f := by
  rw [mem_iff_get? (nodup_paths_ofFiles files), get?_ofFiles]

theorem mem_of_mem_ofFiles (h : f ∈ ofFiles files) : f ∈ files :=
  (of_lastOf?_eq_some (mem_ofFiles.1 h)).1

/-- A file whose path no other one has stays. -/
theorem mem_ofFiles_of_unique (hf : f ∈ files) (h : ∀ f' ∈ files, f'.path = f.path → f' = f) :
    f ∈ ofFiles files := by
  obtain ⟨f', hf', hpath, hlast⟩ := exists_lastOf? hf
  rw [mem_ofFiles, hlast, h f' hf' hpath]

theorem lastOf?_ofFiles (files : List ManifestFile) (path : String) :
    lastOf? path (ofFiles files) = lastOf? path files := by
  rw [← get?_ofFiles, ofFiles_of_nodup (nodup_paths_ofFiles files), get?_ofFiles]

/-- Files that have been put together change a manifest as they do one by one. -/
theorem get?_putAll_ofFiles (m : Manifest) (files : List ManifestFile) (path : String) :
    get? path (m.putAll (ofFiles files)) = get? path (m.putAll files) := by
  rw [get?_putAll, get?_putAll, lastOf?_ofFiles]

/-! ## The order of paths -/

theorem ofFiles_append (files files' : List ManifestFile) :
    ofFiles (files ++ files') = (ofFiles files).putAll files' := putAll_append [] files files'

theorem ofFiles_concat (files : List ManifestFile) (file : ManifestFile) :
    ofFiles (files ++ [file]) = put file (ofFiles files) := ofFiles_append files [file]

/-- Paths stand where they first came. -/
theorem paths_ofFiles (files : List ManifestFile) :
    (ofFiles files).paths = (files.map (·.path)).eraseDups := by
  induction files using List.reverseRecOn with
  | nil => rfl
  | append_singleton files file ih =>
    rw [ofFiles_concat, paths_put, ih, List.map_append, List.map_singleton, eraseDups_concat]
    exact if_congr List.mem_eraseDups rfl rfl

theorem mem_paths_ofFiles : path ∈ paths (ofFiles files) ↔ path ∈ files.map (·.path) := by
  rw [paths_ofFiles, List.mem_eraseDups]

/-- The files of a manifest are found under its paths. -/
theorem filterMap_paths {β : Type} {m : Manifest} (h : m.paths.Nodup)
    (g : ManifestFile → Option β) :
    m.paths.filterMap (fun path => (m.get? path).bind g) = m.filterMap g := by
  induction m with
  | nil => rfl
  | cons f rest ih =>
    obtain ⟨hf, hrest⟩ := List.nodup_cons.1 h
    have hself : get? f.path (f :: rest) = some f := by simp [get?]
    have hothers : ∀ path ∈ paths rest, get? path (f :: rest) = get? path rest := by
      intro path hpath
      have hne : f.path ≠ path := by
        rintro rfl
        exact hf hpath
      simp [get?, hne]
    change (f.path :: paths rest).filterMap _ = _
    rw [List.filterMap_cons, hself, List.filterMap_cons, ← ih hrest,
      List.filterMap_congr fun path hpath => by rw [hothers path hpath]]
    rfl

/-- A manifest is determined by the order of its paths and the last file of each. -/
theorem ofFiles_eq_iff {files files' : List ManifestFile} :
    ofFiles files = ofFiles files' ↔
      (files.map (·.path)).eraseDups = (files'.map (·.path)).eraseDups ∧
        ∀ path, lastOf? path files = lastOf? path files' := by
  constructor
  · intro h
    refine ⟨by rw [← paths_ofFiles, h, paths_ofFiles], fun path => ?_⟩
    rw [← get?_ofFiles, h, get?_ofFiles]
  · rintro ⟨hpaths, hlast⟩
    have heq := filterMap_paths (nodup_paths_ofFiles files) some
    have heq' := filterMap_paths (nodup_paths_ofFiles files') some
    simp only [paths_ofFiles, get?_ofFiles, hpaths, hlast, List.filterMap_some] at heq heq'
    exact heq.symm.trans heq'

/-- Adding the files of a manifest adds the files that it was made of. -/
theorem putAll_ofFiles (files files' : List ManifestFile) :
    (ofFiles files).putAll (ofFiles files') = ofFiles (files ++ files') := by
  rw [← ofFiles_append]
  refine ofFiles_eq_iff.2 ⟨?_, fun path => ?_⟩
  · rw [List.map_append, List.map_append, ← eraseDups_append_eraseDups _ (files'.map _),
      ← paths_ofFiles files']
    rfl
  · rw [lastOf?_append, lastOf?_append, lastOf?_ofFiles]

/-- The manifest `m` holds what was pushed, in order: each path once, where it first came, with the
last file of that path. -/
structure IsMapOf (m : Manifest) (pushed : List ManifestFile) : Prop where
  distinct : m.paths.Nodup
  order : m.paths = (pushed.map (·.path)).eraseDups
  get? : ∀ path, m.get? path = lastOf? path pushed
  ofKind : ∀ kind, m.ofKind kind =
    m.paths.filterMap fun path => (lastOf? path pushed).filter (·.kind = kind)

theorem isMapOf_ofFiles (files : List ManifestFile) : (ofFiles files).IsMapOf files where
  distinct := nodup_paths_ofFiles files
  order := paths_ofFiles files
  get? := get?_ofFiles files
  ofKind kind := by
    have hfiles := filterMap_paths (nodup_paths_ofFiles files) (Option.guard (·.kind = kind))
    rw [List.filterMap_eq_filter] at hfiles
    rw [Manifest.ofKind, ← hfiles]
    refine List.filterMap_congr fun path _ => ?_
    rw [get?_ofFiles]
    cases lastOf? path files <;> simp [Option.guard, Option.filter]

/-! ## Histories -/

/-- A change to a manifest. -/
inductive Edit
  /-- A file is pushed. -/
  | push (file : ManifestFile)
  /-- All files of a manifest with a history of its own are added. -/
  | extend (edits : List Edit)

namespace Edit

mutual

/-- A manifest after a change. -/
def apply (m : Manifest) : Edit → Manifest
  | push file => put file m
  | extend edits => m.putAll (applyAll [] edits)

/-- A manifest after changes. -/
def applyAll (m : Manifest) : List Edit → Manifest
  | [] => m
  | edit :: edits => applyAll (apply m edit) edits

end

/-- The manifest of a history. -/
def build (edits : List Edit) : Manifest := applyAll [] edits

mutual

/-- The files that are pushed in a change. -/
def pushesOf : Edit → List ManifestFile
  | push file => [file]
  | extend edits => pushes edits

/-- The files that are pushed in changes, in order. -/
def pushes : List Edit → List ManifestFile
  | [] => []
  | edit :: edits => pushesOf edit ++ pushes edits

end

mutual

/-- A change adds the files that are pushed in it. -/
theorem apply_ofFiles : ∀ (edit : Edit) (files : List ManifestFile),
    apply (ofFiles files) edit = ofFiles (files ++ pushesOf edit)
  | push file, files => (ofFiles_concat files file).symm
  | extend edits, files => by
    have hbuild : applyAll (ofFiles []) edits = ofFiles (pushes edits) := applyAll_ofFiles edits []
    rw [apply, pushesOf, ← putAll_ofFiles, ← hbuild]
    rfl

theorem applyAll_ofFiles : ∀ (edits : List Edit) (files : List ManifestFile),
    applyAll (ofFiles files) edits = ofFiles (files ++ pushes edits)
  | [], files => by rw [applyAll, pushes, List.append_nil]
  | edit :: edits, files => by
    rw [applyAll, apply_ofFiles edit, applyAll_ofFiles edits, pushes, List.append_assoc]

end

theorem build_eq (edits : List Edit) : build edits = ofFiles (pushes edits) :=
  applyAll_ofFiles edits []

theorem pushes_append (edits edits' : List Edit) :
    pushes (edits ++ edits') = pushes edits ++ pushes edits' := by
  induction edits with
  | nil => rfl
  | cons edit edits ih => rw [List.cons_append, pushes, ih, pushes, List.append_assoc]

theorem pushes_map_push (files : List ManifestFile) : pushes (files.map push) = files := by
  induction files with
  | nil => rfl
  | cons file files ih => rw [List.map_cons, pushes, ih, pushesOf, List.singleton_append]

theorem build_append_extend (edits others : List Edit) :
    build (edits ++ [extend others]) = ofFiles (pushes edits ++ pushes others) := by
  rw [build_eq, pushes_append, pushes, pushesOf, pushes, List.append_nil]

/-- **A manifest is an ordered map.** Whatever files are pushed to a manifest, and whatever
manifests it is extended by, it holds each path once, in the order in which the paths first came,
with the last file of that path. Extending it by a manifest is pushing the files of that manifest
one by one, and is the same as going through the history of that manifest. -/
theorem build_isMapOf (edits : List Edit) :
    (build edits).IsMapOf (pushes edits) ∧
    ∀ others, build (edits ++ [extend others]) = build (edits ++ (build others).map push) ∧
      build (edits ++ [extend others]) = build (edits ++ others) := by
  refine ⟨build_eq edits ▸ isMapOf_ofFiles (pushes edits), fun others => ⟨?_, ?_⟩⟩
  · rw [build_append_extend, build_eq, pushes_append, pushes_map_push, build_eq others,
      ← putAll_ofFiles, ofFiles_append]
  · rw [build_append_extend, build_eq, pushes_append]

-- the file that comes back keeps its place, and has another kind
example : build [push ⟨"a.ts", "one", .utility⟩, push ⟨"b.ts", "two", .utility⟩,
    extend [push ⟨"a.ts", "three", .theme⟩]] =
      [⟨"a.ts", "three", .theme⟩, ⟨"b.ts", "two", .utility⟩] := by decide

end Edit

end Manifest

end DesignSystem
