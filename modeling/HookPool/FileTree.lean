/-
# A directory and what is in it

A tree of files in memory, in which relative paths are looked up as an operating system does it:
component by component, where `.` stays, `..` goes up, empty components count for nothing, and a
path that ends in a slash has to name a directory.  Nothing is known outside the tree: a path that
leaves it, or that begins at the root of the file system, finds directories without entries.
-/
import HookPool.IoError

namespace HookPool

/-- What a name of a directory stands for: the bytes of a file, or a directory. -/
inductive FileEntry where
  | file (bytes : ByteArray)
  | directory

/-- The entries under a directory, each under the components of its path.  A directory above an
entry is there without being listed. -/
structure FileTree where
  entries : List (List String × FileEntry)

namespace FileTree

/-- The most bytes that a component of a path may have. -/
def maxComponentBytes : Nat := 255

/-- The most bytes that a path may have. -/
def maxPathBytes : Nat := 4095

/-- The components of a path; an empty one is kept. -/
def components (path : String) : List String :=
  (path.toList.splitOn '/').map String.ofList

/-- The tree of the given paths and contents. -/
def ofList (entries : List (String × FileEntry)) : FileTree :=
  ⟨entries.map fun (path, entry) => ((components path).filter (· ≠ ""), entry)⟩

/-- What stands at a place in the tree. -/
def entryAt? (tree : FileTree) (place : List String) : Option FileEntry :=
  if place.isEmpty then some .directory
  else
    match tree.entries.find? fun entry => entry.1 == place with
    | some entry => some entry.2
    | none => if tree.entries.any fun entry => place.isPrefixOf entry.1 then some .directory else none

/-- The component names no entry of its own. -/
def isStep (name : String) : Bool :=
  name == "" || name == "." || name == ".."

/-- Follows the components of a path outside the tree. -/
def walkOutside (names : List String) : Except IoError FileEntry :=
  match names.find? fun name => !isStep name with
  | none => .ok .directory
  | some name => .error (if maxComponentBytes < name.utf8ByteSize then .nameTooLong else .notFound)

/-- Follows the components of a path from a place whose entry is known. -/
def walk (tree : FileTree) (place : List String) : FileEntry → List String → Except IoError FileEntry
  | entry, [] => .ok entry
  | .file _, _ :: _ => .error .notADirectory
  | .directory, name :: names =>
    if name = "" ∨ name = "." then tree.walk place .directory names
    else if name = ".." then
      if place.isEmpty then walkOutside names else tree.walk place.dropLast .directory names
    else if maxComponentBytes < name.utf8ByteSize then .error .nameTooLong
    else
      match tree.entryAt? (place ++ [name]) with
      | none => .error .notFound
      | some entry => tree.walk (place ++ [name]) entry names

/-- The bytes of the file that a path names. -/
def read (tree : FileTree) (path : String) : Except IoError ByteArray :=
  if path.toList.contains '\x00' then .error .nulInPath
  else if path = "" then .error .notFound
  else if maxPathBytes < path.utf8ByteSize then .error .nameTooLong
  else
    let found :=
      if path.toList.head? = some '/' then walkOutside (components path)
      else tree.walk [] .directory (components path)
    match found with
    | .error e => .error e
    | .ok (.file bytes) => .ok bytes
    | .ok .directory => .error .isADirectory

end FileTree
end HookPool
