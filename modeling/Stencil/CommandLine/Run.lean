import Stencil.CommandLine.Command
import Stencil.Component.Write

/-!
# Running commands

A command works on a file tree. It reports every component on standard output, and on standard error
what stands in its way; with logging on, the steps of the work come there too. A batch loads all its
requests before it writes anything.

* `Outcome`, with the `Ending` of a run;
* `Outcome.component`, which writes and reports one component;
* `Command.run`.
-/

set_option autoImplicit false

namespace Stencil

/-- How a run ends: with an exit status, or broken off by trouble that it has no words for. -/
inductive Ending where
  | exit (status : Nat)
  | broken (breakdown : Breakdown)
  deriving DecidableEq, Repr

/-- The file tree and the output of a run, so far or at its end; while it goes on there is no
ending. -/
structure Outcome where
  tree : FileTree
  output : Text := []
  errors : Text := []
  ending : Option Ending := none

namespace Outcome

/-- A line on standard output. -/
def print (outcome : Outcome) (line : Text) : Outcome :=
  { outcome with output := outcome.output ++ line ++ ("\n" : Text) }

/-- A line on standard error. -/
def warn (outcome : Outcome) (line : Text) : Outcome :=
  { outcome with errors := outcome.errors ++ line ++ ("\n" : Text) }

/-- The run ends with a message and exit status 1. -/
def fail (outcome : Outcome) (message : Text) : Outcome :=
  { outcome.warn message with ending := some (.exit 1) }

/-- The run is broken off. -/
def breakOff (outcome : Outcome) (breakdown : Breakdown) : Outcome :=
  { outcome with ending := some (.broken breakdown) }

/-- The run ends because there is no request. -/
def failOn (outcome : Outcome) : Failure → Outcome
  | .refused refusal => outcome.fail refusal.message
  | .broken breakdown => outcome.breakOff breakdown

end Outcome

/-! ## Log lines -/

/-- A line of the log, about the library as a whole or about one template. -/
def logLine (level topic message : Text) : Text :=
  level ++ (" bootstrap_hbs." : Text) ++ topic ++ (": " : Text) ++ message

/-- What is logged of keys that come up again. -/
def repeatedLines (keys : List Text) : List Text :=
  keys.map fun key =>
    logLine "DEBUG" "transform.engine"
      (("Field key " : Text) ++ Text.quoted key ++
        (" already registered; keeping the first" : Text))

/-- What is logged of a rendering: nothing where its elements are too deep to be counted, and where
they are too deep to be rendered, no more than what is met before the first of those. -/
def Rendering.log (host : Host) (rendering : Rendering) : List Text :=
  let elements := (Node.tagsOf rendering.tree).length
  let parsed := logLine "DEBUG" "library"
    (("Parsed " : Text) ++ natNumeral elements ++ (" elements for component " : Text) ++
      Text.quoted rendering.slug)
  let transformed := logLine "DEBUG" "transform.engine"
    (("Transformed fragment into " : Text) ++ natNumeral rendering.template.fields.length ++
      (" fields" : Text))
  if host.counting < Node.depthOf rendering.tree then []
  else if host.rendering < Node.depthOf rendering.tree then
    let met := (Node.reachedOf rendering.tree host.rendering).1
    parsed :: repeatedLines (Template.ofTree rendering.request.options met).repeated
  else parsed :: repeatedLines rendering.template.repeated ++ [transformed]

/-- What is logged of a component that is written. -/
def Report.log (report : Report) : Text :=
  logLine "INFO" "library"
    (("Generated component " : Text) ++ Text.quoted report.slug ++ (" with " : Text) ++
      natNumeral report.fieldCount ++ (" fields in " : Text) ++ report.target.text)

/-! ## Components -/

/-- A path as it is shown: below the working directory where it lies there, as it is elsewhere. -/
def FileTree.shownPath (tree : FileTree) (path : Path) : Text :=
  if path.isAbsolute then
    ((path.relativeTo? ⟨"/", tree.workingDirectory⟩).getD path).text
  else path.text

/-- The names of all documents. -/
def documentNames : Text :=
  Text.join ", " (Document.all.map Document.fileName)

namespace Outcome

/-- Reports a component that is written. -/
def report (outcome : Outcome) (report : Report) : Outcome :=
  ((outcome.print
    (("Generated component at: " : Text) ++ outcome.tree.shownPath report.target)).print
    (("Files: " : Text) ++ documentNames)).print
    (("Editable fields: " : Text) ++ natNumeral report.fieldCount)

/-- Lines of the log, if the work is logged. -/
def logAll (outcome : Outcome) (settings : Settings) (lines : List Text) : Outcome :=
  if settings.verbose then lines.foldl warn outcome else outcome

/-- Writes and reports the component of a request. -/
def component (host : Host) (settings : Settings) (outcome : Outcome) (request : Request) :
    Outcome :=
  let rendering := Rendering.ofRequest request
  let outcome := outcome.logAll settings (rendering.log host)
  match rendering.write host settings.library outcome.tree with
  | (tree, .ok report) =>
    ({ outcome with tree := tree }.logAll settings [report.log]).report report
  | (tree, .error .tooDeep) => { outcome with tree := tree }.breakOff (.tooDeep .markup)
  | (tree, .error (.unencodable fault)) =>
    { outcome with tree := tree }.breakOff (.unencodable fault)
  | (tree, .error (.storage .nullInPath)) =>
    { outcome with tree := tree }.breakOff (.storage .nullInPath)
  | (tree, .error (.storage .tooDeep)) =>
    { outcome with tree := tree }.breakOff (.storage .tooDeep)
  | (tree, .error (.storage (.at trouble path))) =>
    let outcome := { outcome with tree := tree }
    let target := outcome.tree.shownPath (request.target settings.library)
    outcome.fail (("Unable to write component to '" : Text) ++ target ++ ("': " : Text) ++
      FileFault.message (.at trouble path))

/-- Writes and reports components one after another, until the run ends. -/
def components (host : Host) (settings : Settings) : List Request → Outcome → Outcome
  | [], outcome => { outcome with ending := some (.exit 0) }
  | request :: requests, outcome =>
    let outcome := outcome.component host settings request
    if outcome.ending.isSome then outcome else components host settings requests outcome

end Outcome

/-! ## Commands -/

/-- What to say when there is no request at all. -/
def usage : Text :=
  "Usage: bootstrap-hbs --input ./path/to/input.json OR pipe JSON to stdin"

/-- Whether bytes are all ASCII white space. -/
def isBlankBytes (bytes : Bytes) : Bool :=
  bytes.all fun byte => byte = 0x20 || (0x09 ≤ byte && byte ≤ 0x0D)

/-- All requests of some files, or the first failure. -/
def loadAll (host : Host) (tree : FileTree) : List Path → Except Failure (List Request)
  | [] => .ok []
  | path :: paths =>
    match Request.load host tree path with
    | .error failure => .error failure
    | .ok request =>
      match loadAll host tree paths with
      | .error failure => .error failure
      | .ok requests => .ok (request :: requests)

/-- Runs a command on a file tree. Standard input is the bytes of a pipe; a terminal has none. -/
def Command.run (host : Host) (command : Command) (standardInput : Bytes) (tree : FileTree) :
    Outcome :=
  let start : Outcome := { tree := tree }
  match command with
  | .generate (some path) settings =>
    match Request.load host tree path with
    | .error failure => start.failOn failure
    | .ok request => start.components host settings [request]
  | .generate none settings =>
    if isBlankBytes standardInput then start.fail usage
    else
      match Request.parseBytes host "input" standardInput with
      | .error failure => start.failOn failure
      | .ok request => start.components host settings [request]
  | .batch paths settings =>
    match loadAll host tree paths with
    | .error failure => start.failOn failure
    | .ok requests => start.components host settings requests

end Stencil
