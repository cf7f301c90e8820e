import Stencil.CommandLine.Run

/-!
# The program

The command is run on a copy of the part of the file system that it can reach: the request files,
the directories where components go, and the documents that are there already. What it changes in
the copy is then written back.

* `Program.survey`, which adds what stands along a path to the copy;
* `Program.writeBack`;
* `main`.
-/

set_option autoImplicit false

namespace Stencil

namespace Program

/-- A text for a stream or a file name; halves of surrogate pairs are shown by their number. -/
def spell (text : Text) : String :=
  String.ofList (text.flatMap fun
    | .scalar c => [c]
    | .half offset =>
      (CodePoint.escaped (.half offset)).filterMap fun
        | .scalar c => some c
        | .half _ => none)

/-- The absolute name of a location. -/
def nameOf (location : Location) : String :=
  "/" ++ spell (Text.join "/" location)

/-- What stands at a location. -/
def entryAt (location : Location) : IO (Option Entry) := do
  let name := (← IO.currentDir) / nameOf location
  if ← name.isDir then return some .directory
  else if ← name.pathExists then return some (.file (← IO.FS.readBinFile name).toList)
  else return none

/-- The copy with what stands along a path, up to the first name that is missing. -/
def survey (tree : FileTree) (path : Path) : IO FileTree := do
  let mut location := if path.isAbsolute then [] else tree.workingDirectory
  let mut tree := tree
  for name in path.names do
    location := if name = (".." : Text) then location.dropLast else location ++ [name]
    match ← entryAt location with
    | some entry => tree := tree.place location entry
    | none => return tree
  return tree

/-- The copy that a command starts from, with nothing in it but the working directory. -/
def emptyCopy : IO FileTree := do
  let here := (Path.ofText (Text.ofString (← IO.currentDir).toString)).names
  return FileTree.place ⟨here, []⟩ here .directory

/-- All bytes of standard input; none when it is a terminal. -/
partial def readInput (stream : IO.FS.Stream) (known : ByteArray) : IO ByteArray := do
  let more ← stream.read 65536
  if more.isEmpty then return known else readInput stream (known ++ more)

/-- The bytes that are piped in. -/
def pipedInput : IO Bytes := do
  let stream ← IO.getStdin
  if ← stream.isTty then return [] else return (← readInput stream ByteArray.empty).toList

/-- Where the component of a request goes, with its documents. -/
def targetsOf (settings : Settings) (request : Request) : List Path :=
  let target := request.target settings.library
  target :: Document.all.map fun document => target.append [document.fileName]

/-- The copy of all that a command can reach. -/
def copyFor (command : Command) (input : Bytes) : IO FileTree := do
  let mut tree ← emptyCopy
  let (paths, settings) :=
    match command with
    | .generate path settings => (path.toList, settings)
    | .batch paths settings => (paths, settings)
  for path in paths do
    tree ← survey tree path
  let loaded := tree
  let requests :=
    match command with
    | .generate none _ => [Request.parseBytes .usual "input" input]
    | _ => paths.map (Request.load .usual loaded)
  for request in requests do
    match request with
    | .ok request =>
      for path in targetsOf settings request do
        tree ← survey tree path
    | .error _ => pure ()
  return tree

/-- Writes what is new in a tree to the file system, directories before what they hold. -/
def writeBack (old new : FileTree) : IO Unit := do
  let changed := new.entries.filter fun item => old.entry? item.1 ≠ some item.2
  let sorted := changed.mergeSort fun a b => a.1.length ≤ b.1.length
  for (location, entry) in sorted do
    match entry with
    | .directory => IO.FS.createDirAll (nameOf location)
    | .file content => IO.FS.writeBinFile (nameOf location) ⟨content.toArray⟩

/-- The variables that stand in for options. -/
def environment : IO Environment := do
  let names : List String := ["INPUT_INPUT", "INPUT_LIBRARY_DIR", "INPUT_VERBOSE", "INPUT_PATHS"]
  let mut found : Environment := []
  for name in names do
    if let some value ← IO.getEnv name then
      found := found ++ [(Text.ofString name, Text.ofString value)]
  return found

/-- The words for a command line that is not understood. -/
def usageMessage : UsageError → String
  | .unknownOption => "Unknown option."
  | .missingArgument => "An option or the list of paths lacks its value."
  | .unusedArgument => "Too many words."
  | .badValue => "An option has a value that it cannot take."

/-- Runs a command on the file system and gives the exit status. -/
def perform (command : Command) : IO UInt32 := do
  let input ←
    match command with
    | .generate none _ => pipedInput
    | _ => pure []
  let tree ← copyFor command input
  let outcome := command.run .usual input tree
  writeBack tree outcome.tree
  IO.print (spell outcome.output)
  IO.eprint (spell outcome.errors)
  match outcome.ending with
  | some (.exit status) => return UInt32.ofNat status
  | some (.broken breakdown) =>
    IO.eprintln (spell breakdown.message)
    return 1
  | none => return 0

end Program

end Stencil

/-- Does what the words of the command line ask for. -/
def main (words : List String) : IO UInt32 := do
  let environment ← Stencil.Program.environment
  match Stencil.Command.ofWords environment (words.map Stencil.Text.ofString) with
  | .ok command => Stencil.Program.perform command
  | .error fault =>
    IO.eprintln (Stencil.Program.usageMessage fault)
    return 1
