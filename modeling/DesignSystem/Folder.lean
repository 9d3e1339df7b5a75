import DesignSystem.Entries
import DesignSystem.Text.Basic

/-!
# Folders

A folder of files that is read by paths. A path is a text whose steps slashes separate; an empty
step and a single dot stay where they are.
-/

set_option autoImplicit false

namespace DesignSystem

/-- Why a file cannot be read. -/
inductive FileFailure
  | notFound
  | isFolder
  /-- A step leads on from a file. -/
  | notFolder
  | badPath
  /-- The content is not text in UTF-8. -/
  | notText
  deriving DecidableEq

/-- The failure in words. -/
def FileFailure.message : FileFailure → String
  | notFound => "no such file or directory"
  | isFolder => "is a directory"
  | notFolder => "not a directory"
  | badPath => "invalid path"
  | notText => "stream did not contain valid UTF-8"

/-- What a folder holds under a name. -/
inductive FolderItem
  | file (content : ByteArray)
  | folder (items : List (String × FolderItem))

/-- Files and folders by name. -/
abbrev Folder := List (String × FolderItem)

namespace Folder

/-- The steps of a path. -/
def steps (path : String) : List String := Text.splitAtChar '/' path

/-- Whether a step stays where it is. -/
def stays (step : String) : Bool := step = "" || step = "."

/-- The item at the end of steps that start at an item. -/
def walk : List String → FolderItem → Except FileFailure FolderItem
  | [], item => .ok item
  | _ :: _, .file _ => .error .notFolder
  | step :: rest, .folder items =>
    if stays step then walk rest (.folder items)
    else
      match Entries.get? step items with
      | some item => walk rest item
      | none => .error .notFound

/-- Whether a path stays below the folder that it starts at: it does not start at a root, and no
step leads up. -/
def isBelow (path : String) : Bool :=
  !Text.startsWith "/" path && (steps path).all (· ≠ "..")

/-- The item at a path below a folder. -/
def item (root : Folder) (path : String) : Except FileFailure FolderItem :=
  if isBelow path && !path.toList.contains '\x00' then walk (steps path) (.folder root)
  else .error .badPath

/-- Whether there is a file at a path. -/
def hasFile (root : Folder) (path : String) : Bool :=
  match root.item path with
  | .ok (.file _) => true
  | _ => false

/-- The text of the file at a path. -/
def read (root : Folder) (path : String) : Except FileFailure String :=
  match root.item path with
  | .error e => .error e
  | .ok (.folder _) => .error .isFolder
  | .ok (.file content) =>
    match String.fromUTF8? content with
    | some text => .ok text
    | none => .error .notText

/-- Writes a file at the end of steps, with the folders on the way. -/
def write (content : ByteArray) : List String → Folder → Folder
  | [], root => root
  | [name], root => Entries.insert name (.file content) root
  | step :: rest, root =>
    let inner := match Entries.get? step root with
      | some (.folder items) => items
      | _ => []
    Entries.insert step (.folder (write content rest inner)) root

/-- The folder of files with the given paths. -/
def ofFiles (files : Entries ByteArray) : Folder :=
  files.foldl (fun root file => write file.2 ((steps file.1).filter (!stays ·)) root) []

end Folder

end DesignSystem
