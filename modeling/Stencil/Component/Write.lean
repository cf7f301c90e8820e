import Stencil.Component.Documents
import Stencil.Request.Load

/-!
# Writing components

A component goes into the directory of its category and slug below the library directory. All three
documents are rendered and encoded before anything is written; then the directory is made, with
those on the way to it, and the documents are written one after another until one cannot be. Markup
whose elements are too deep in each other is not rendered.

* `Request.target`, the directory of a component;
* `Rendering.encoded`, the bytes of all documents;
* `Report`, and `Rendering.write` with the file tree after it, whatever the outcome.
-/

set_option autoImplicit false

namespace Stencil

/-- The directory that a component is written to. -/
def Request.target (request : Request) (library : Path) : Path :=
  library.append (request.categorySegments ++ [request.slug])

/-- What was written, and how many fields the template has. -/
structure Report where
  slug : Text
  target : Path
  written : List Path
  fieldCount : Nat
  deriving DecidableEq, Repr

/-- The names of the written files. -/
def Report.fileNames (report : Report) : List Text :=
  report.written.map Path.name

/-- Why a component is not written, or not in full. -/
inductive WriteFailure where
  | tooDeep
  | unencodable (fault : Utf8.EncodeFault)
  | storage (fault : FileFault)
  deriving DecidableEq, Repr

namespace Rendering

/-- Whether the elements of the markup are too deep in each other to be counted or rendered. -/
def isTooDeep (host : Host) (rendering : Rendering) : Bool :=
  host.counting < Node.depthOf rendering.tree || host.rendering < Node.depthOf rendering.tree

/-- The bytes of some documents, each with its file name. -/
def encode (rendering : Rendering) : List Document → Except Utf8.EncodeFault (List (Text × Bytes))
  | [] => .ok []
  | document :: documents =>
    match Utf8.encode (rendering.content document) with
    | .error fault => .error fault
    | .ok bytes =>
      match rendering.encode documents with
      | .error fault => .error fault
      | .ok others => .ok ((document.fileName, bytes) :: others)

/-- The bytes of all documents, each with its file name. -/
def encoded (rendering : Rendering) : Except Utf8.EncodeFault (List (Text × Bytes)) :=
  rendering.encode Document.all

end Rendering

/-- Writes files into a directory, one after another, until one cannot be written. -/
def FileTree.writeAll (tree : FileTree) (directory : Path) :
    List (Text × Bytes) → FileTree × Option FileFault
  | [] => (tree, none)
  | (name, content) :: files =>
    match tree.write (directory.append [name]) content with
    | .error fault => (tree, some fault)
    | .ok tree => tree.writeAll directory files

namespace Rendering

/-- Writes a component below the library directory. -/
def write (host : Host) (rendering : Rendering) (library : Path) (tree : FileTree) :
    FileTree × Except WriteFailure Report :=
  if rendering.isTooDeep host then (tree, .error .tooDeep)
  else
    match rendering.encoded with
    | .error fault => (tree, .error (.unencodable fault))
    | .ok files =>
      let target := rendering.request.target library
      match tree.ensureDirectory host target with
      | (tree, some fault) => (tree, .error (.storage fault))
      | (tree, none) =>
        match tree.writeAll target files with
        | (tree, some fault) => (tree, .error (.storage fault))
        | (tree, none) =>
          (tree, .ok
            { slug := rendering.slug
              target := target
              written := files.map fun file => target.append [file.1]
              fieldCount := rendering.template.fields.length })

end Rendering

end Stencil
