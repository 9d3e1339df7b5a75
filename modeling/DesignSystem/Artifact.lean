import DesignSystem.Json.Basic

/-!
# Generated files

A manifest lists the files that a request produces, in the order in which their paths first came.
A path occurs once: a later file of the same path takes the place of the earlier one.
-/

set_option autoImplicit false

namespace DesignSystem

/-- A text with the path that it is meant for. -/
structure Artifact where
  path : String
  content : String
  deriving DecidableEq

/-- What a file is for. -/
inductive ArtifactKind
  | component | types | styles | test | story | locale | tokens | theme | utility
  deriving DecidableEq

namespace ArtifactKind

/-- The name of a kind. -/
def name : ArtifactKind → String
  | component => "component"
  | types => "types"
  | styles => "styles"
  | test => "test"
  | story => "story"
  | locale => "locale"
  | tokens => "tokens"
  | theme => "theme"
  | utility => "util"

/-- All kinds. -/
def all : List ArtifactKind :=
  [component, types, styles, test, story, locale, tokens, theme, utility]

/-- The kind of a name. -/
def ofName? (s : String) : Option ArtifactKind := all.find? (·.name = s)

end ArtifactKind

/-- A file of a manifest. -/
structure ManifestFile where
  path : String
  content : String
  kind : ArtifactKind
  deriving DecidableEq

/-- A generated text as a file of a kind. -/
def Artifact.as (kind : ArtifactKind) (a : Artifact) : ManifestFile := ⟨a.path, a.content, kind⟩

/-- Generated files in the order in which their paths first came. -/
abbrev Manifest := List ManifestFile

namespace Manifest

/-- Adds a file: in the place of the file of its path, or at the end. -/
def put (file : ManifestFile) : Manifest → Manifest
  | [] => [file]
  | f :: rest => if f.path = file.path then file :: rest else f :: put file rest

/-- Adds files one after the other. -/
def putAll (m : Manifest) (files : List ManifestFile) : Manifest :=
  files.foldl (fun m file => put file m) m

/-- The manifest of files that are added one after the other. -/
def ofFiles (files : List ManifestFile) : Manifest := putAll [] files

/-- The file of a path. -/
def get? (path : String) (m : Manifest) : Option ManifestFile := m.find? (·.path = path)

/-- The files of a kind. -/
def ofKind (kind : ArtifactKind) (m : Manifest) : List ManifestFile := m.filter (·.kind = kind)

/-- The paths in order. -/
def paths (m : Manifest) : List String := m.map (·.path)

end Manifest

open Json (Value)

/-- A file as JSON. -/
def ManifestFile.toJson (f : ManifestFile) : Value :=
  .object [("path", .string f.path), ("content", .string f.content),
    ("kind", .string f.kind.name)]

/-- A manifest as JSON. -/
def Manifest.toJson (m : Manifest) : Value :=
  .object [("files", .array (m.map ManifestFile.toJson))]

end DesignSystem
