import Stencil.Host
import Stencil.Storage.Path
import Stencil.Text.Quoted

/-!
# File trees

Directories and regular files, as a table from locations to entries. A location is the list of names
from the root; a path is resolved one name after another, each in a directory that is there, and a
double dot leads back to the directory above.

* `Entry`, `FileTree`, `FileTree.entry?` and `FileTree.put`;
* `FileTree.locate`, where a path leads;
* `FileTree.read`, `FileTree.write`, `FileTree.makeDirectory` and `FileTree.ensureDirectory`;
* `FileFault` with its words.
-/

set_option autoImplicit false

namespace Stencil

/-- The names from the root down to an entry. -/
abbrev Location := List Text

/-- What stands at a location. -/
inductive Entry where
  | directory
  | file (content : Bytes)
  deriving DecidableEq, Repr

/-- Entries by location, each location once, and the directory in which relative paths start. The
root is always a directory. -/
structure FileTree where
  workingDirectory : Location
  entries : List (Location × Entry)

/-! ## Faults -/

/-- What stands in the way of an operation. -/
inductive FileTrouble where
  | notFound
  | alreadyExists
  | notDirectory
  | isDirectory
  | nameTooLong
  deriving DecidableEq, Repr

/-- An operation that fails: on account of what stands at a path, because the path holds a null code
point, or because too many directories are missing on the way to it. -/
inductive FileFault where
  | at (trouble : FileTrouble) (path : Path)
  | nullInPath
  | tooDeep
  deriving DecidableEq, Repr

/-- The number of a trouble. -/
def FileTrouble.number : FileTrouble → Nat
  | notFound => 2
  | alreadyExists => 17
  | notDirectory => 20
  | isDirectory => 21
  | nameTooLong => 36

/-- The words for a trouble. -/
def FileTrouble.message : FileTrouble → Text
  | notFound => "No such file or directory"
  | alreadyExists => "File exists"
  | notDirectory => "Not a directory"
  | isDirectory => "Is a directory"
  | nameTooLong => "File name too long"

/-- The words for a fault. -/
def FileFault.message : FileFault → Text
  | «at» trouble path =>
    ("[Errno " : Text) ++ natNumeral trouble.number ++ ("] " : Text) ++ trouble.message ++
      (": " : Text) ++ Text.quoted path.text
  | nullInPath => "embedded null byte"
  | tooDeep => Descent.directory.message

namespace FileTree

/-! ## Entries -/

/-- The entry at a location. -/
def entry? (tree : FileTree) (location : Location) : Option Entry :=
  if location = [] then some .directory
  else (tree.entries.find? fun item => item.1 = location).map (·.2)

/-- Replaces the entry at a location, or adds one. -/
def putIn (location : Location) (entry : Entry) :
    List (Location × Entry) → List (Location × Entry)
  | [] => [(location, entry)]
  | (other, old) :: rest =>
    if other = location then (other, entry) :: rest else (other, old) :: putIn location entry rest

/-- The tree with an entry at a location. -/
def put (tree : FileTree) (location : Location) (entry : Entry) : FileTree :=
  { tree with entries := putIn location entry tree.entries }

/-- The tree with an entry at a location and directories on the way there. -/
def place (tree : FileTree) (location : Location) (entry : Entry) : FileTree :=
  let ancestors := (List.range location.length).map fun count => location.take count
  let tree := ancestors.foldl (fun tree ancestor =>
    if (tree.entry? ancestor).isSome then tree else tree.put ancestor .directory) tree
  tree.put location entry

/-! ## Resolving paths -/

/-- Where a name leads from a location. -/
def step (tree : FileTree) (location : Location) (name : Text) : Except FileTrouble Location :=
  match tree.entry? location with
  | none => .error .notFound
  | some (.file _) => .error .notDirectory
  | some .directory =>
    if name = ".." then .ok location.dropLast
    else if Path.nameLimit < Utf8.size name then .error .nameTooLong
    else .ok (location ++ [name])

/-- Where names lead from a location. What stands at the end is not asked for. -/
def follow (tree : FileTree) : Location → List Text → Except FileTrouble Location
  | location, [] => .ok location
  | location, name :: names =>
    match tree.step location name with
    | .ok next => follow tree next names
    | .error trouble => .error trouble

/-- Where a path leads. -/
def locate (tree : FileTree) (path : Path) : Except FileFault Location :=
  if path.hasNull then .error .nullInPath
  else if Path.sizeLimit ≤ Utf8.size path.text then .error (.at .nameTooLong path)
  else
    match tree.follow (if path.isAbsolute then [] else tree.workingDirectory) path.names with
    | .ok location => .ok location
    | .error trouble => .error (.at trouble path)

/-- What stands at the end of a path. -/
def inspect (tree : FileTree) (path : Path) : Except FileFault Entry :=
  match tree.locate path with
  | .error fault => .error fault
  | .ok location =>
    match tree.entry? location with
    | some entry => .ok entry
    | none => .error (.at .notFound path)

/-! ## Operations -/

/-- The content of a file. -/
def read (tree : FileTree) (path : Path) : Except FileFault Bytes :=
  match tree.inspect path with
  | .error fault => .error fault
  | .ok .directory => .error (.at .isDirectory path)
  | .ok (.file content) => .ok content

/-- The tree with a file of the given content at a path, in a directory that is there. -/
def write (tree : FileTree) (path : Path) (content : Bytes) : Except FileFault FileTree :=
  match tree.locate path with
  | .error fault => .error fault
  | .ok location =>
    if tree.entry? location = some .directory then .error (.at .isDirectory path)
    else .ok (tree.put location (.file content))

/-- The tree with a new directory at a path, in a directory that is there. -/
def makeDirectory (tree : FileTree) (path : Path) : Except FileFault FileTree :=
  match tree.locate path with
  | .error fault => .error fault
  | .ok location =>
    if (tree.entry? location).isSome then .error (.at .alreadyExists path)
    else .ok (tree.put location .directory)

/-- The tree with a directory at a path, in a directory that is there; one that exists already will
do. -/
def allowDirectory (tree : FileTree) (path : Path) : Except FileFault FileTree :=
  match tree.makeDirectory path with
  | .ok tree => .ok tree
  | .error (.at .notFound path) => .error (.at .notFound path)
  | .error fault =>
    match tree.inspect path with
    | .ok .directory => .ok tree
    | _ => .error fault

/-- What `make` makes of the tree above a path, if there is room for one more directory. -/
def above (tree : FileTree) (make : Nat → FileTree × Option FileFault) :
    Nat → FileTree × Option FileFault
  | 0 => (tree, some .tooDeep)
  | room + 1 => make room

/-- The tree with directories at the path `root` followed by the names in `reversed`, the last of
them first, and at all paths on the way there; with the fault, if one stops the work. No more than
`room` directories above the path can be made. -/
def ensureNames (root : Text) (tree : FileTree) : List Text → Nat → FileTree × Option FileFault
  | [], _ =>
    match tree.allowDirectory ⟨root, []⟩ with
    | .ok tree => (tree, none)
    | .error fault => (tree, some fault)
  | name :: reversed, room =>
    let path : Path := ⟨root, (name :: reversed).reverse⟩
    match tree.allowDirectory path with
    | .ok tree => (tree, none)
    | .error (.at .notFound _) =>
      match tree.above (ensureNames root tree reversed) room with
      | (tree, some fault) => (tree, some fault)
      | (tree, none) =>
        match tree.allowDirectory path with
        | .ok tree => (tree, none)
        | .error fault => (tree, some fault)
    | .error fault => (tree, some fault)

/-- The tree with a directory at a path and at all paths on the way there. -/
def ensureDirectory (host : Host) (tree : FileTree) (path : Path) : FileTree × Option FileFault :=
  ensureNames path.root tree path.names.reverse host.directories

end FileTree

end Stencil
