import Stencil.Json.Reader
import Stencil.Request.Basic
import Stencil.Storage.FileTree
import Stencil.Yaml.Reader

/-!
# Loading requests

A request comes as a JSON text, as bytes, or in a file, which holds YAML when its suffix says so.
What is wrong with a request is a `Refusal`, to be reported to whoever sent it; a `Breakdown` is
trouble of another kind that no caller expects.

* `Refusal`, `Breakdown`, `Failure`, with their words;
* `Request.ofValue`, `Request.parse`, `Request.parseBytes`;
* `Request.load`, from a file of a tree.
-/

set_option autoImplicit false

namespace Stencil

/-- Why a request is refused. -/
inductive Refusal where
  | noMapping
  | invalidJson (fault : Json.Fault) (text : Text) (position : Nat)
  | invalidYaml (reason : Text)
  | invalidUtf8 (source : Text) (fault : Utf8.DecodeFault)
  | missingFile (path : Path)
  | unreadableFile (path : Path) (fault : FileFault)
  deriving DecidableEq, Repr

/-- What ends the work without being anything that a request is refused for: an integer of too many
digits to be read or to be written, something that is nested too deep, a YAML scalar that its type
does not allow, text without an encoding, or a path that cannot be followed. -/
inductive Breakdown where
  | hugeInteger (digits : Nat)
  | unwritable
  | tooDeep (descent : Descent)
  | scalar (fault : Yaml.ScalarFault)
  | unencodable (fault : Utf8.EncodeFault)
  | storage (fault : FileFault)
  deriving DecidableEq, Repr

/-- Why there is no request. -/
inductive Failure where
  | refused (refusal : Refusal)
  | broken (breakdown : Breakdown)
  deriving DecidableEq, Repr

/-- The words for a refusal. -/
def Refusal.message : Refusal → Text
  | noMapping => "Request must be a JSON object."
  | invalidJson fault text position =>
    ("Invalid JSON input: " : Text) ++ Json.ReadError.message (.malformed fault text position)
  | invalidYaml reason => ("Invalid YAML input: " : Text) ++ reason
  | invalidUtf8 source fault =>
    ("Invalid UTF-8 in " : Text) ++ source ++ (": " : Text) ++ fault.message
  | missingFile path => ("Request file '" : Text) ++ path.text ++ ("' not found." : Text)
  | unreadableFile path fault =>
    ("Unable to read request file '" : Text) ++ path.text ++ ("': " : Text) ++ fault.message

/-- The words for a breakdown. -/
def Breakdown.message : Breakdown → Text
  | hugeInteger digits => hugeIntegerMessage digits
  | unwritable => unwritableMessage
  | tooDeep descent => descent.message
  | scalar fault => fault.message
  | unencodable fault => fault.message
  | storage fault => fault.message

namespace Request

/-- The request that a decoded value describes, if what it says can be written. -/
def ofValue (host : Host) (value : Value) : Except Failure Request :=
  match ofValue? value with
  | none => .error (.refused .noMapping)
  | some request =>
    match fault? host value with
    | none => .ok request
    | some .longInteger => .error (.broken .unwritable)
    | some .tooDeep => .error (.broken (.tooDeep .value))

/-- The request in a JSON text. -/
def parse (host : Host) (text : Text) : Except Failure Request :=
  match Json.read host text with
  | .ok document => ofValue host (.ofJson document)
  | .error (.malformed fault text position) => .error (.refused (.invalidJson fault text position))
  | .error (.hugeInteger digits) => .error (.broken (.hugeInteger digits))
  | .error (.tooDeep descent) => .error (.broken (.tooDeep descent))

/-- The request in a YAML text. -/
def parseYaml (host : Host) (text : Text) : Except Failure Request :=
  match Yaml.read host.composing text with
  | .ok value => ofValue host value
  | .error .malformed => .error (.refused (.invalidYaml (host.yamlReason text)))
  | .error .tooDeep => .error (.broken (.tooDeep .composition))
  | .error (.scalar fault) => .error (.broken (.scalar fault))

/-- The request in the bytes of a JSON text, which come from `source`. -/
def parseBytes (host : Host) (source : Text) (bytes : Bytes) : Except Failure Request :=
  match Utf8.decode bytes with
  | .ok text => parse host text
  | .error fault => .error (.refused (.invalidUtf8 source fault))

/-- The suffixes of files that hold YAML, in lower case. -/
def yamlSuffixes : List Text :=
  [".yaml", ".yml"]

/-- The request in the bytes of a file with the given path. -/
def parseFile (host : Host) (path : Path) (bytes : Bytes) : Except Failure Request :=
  match Utf8.decode bytes with
  | .error fault =>
    .error (.refused (.invalidUtf8 (("request file '" : Text) ++ path.text ++ ("'" : Text)) fault))
  | .ok text =>
    if yamlSuffixes.contains (Text.lower path.suffix) then parseYaml host text
    else parse host text

/-- The request in a file. A path that leads nowhere names no file; one that is too long to be
followed is no fault of the request. -/
def load (host : Host) (tree : FileTree) (path : Path) : Except Failure Request :=
  match tree.read path with
  | .ok bytes => parseFile host path bytes
  | .error (.at .isDirectory path) =>
    .error (.refused (.unreadableFile path (.at .isDirectory path)))
  | .error (.at .nameTooLong path) => .error (.broken (.storage (.at .nameTooLong path)))
  | .error _ => .error (.refused (.missingFile path))

end Request

end Stencil
