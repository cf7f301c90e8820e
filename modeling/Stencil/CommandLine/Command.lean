import Stencil.Storage.Path

/-!
# Commands

What the words of a command line ask for. The word `batch` in front asks for the components of
several request files; without it one component is generated, from the file of `--input` or from
standard input. A value comes with its option behind an equals sign or as the next word. What the
words leave open is taken from the environment.

* `Command` and `Settings`; `UsageError`;
* `Words`, the options found so far, and `Words.read`;
* `Command.ofWords`.
-/

set_option autoImplicit false

namespace Stencil

/-- Where components go, and whether the work is logged. -/
structure Settings where
  library : Path
  verbose : Bool
  deriving DecidableEq, Repr

/-- What to do. Without an input path, `generate` reads standard input. -/
inductive Command where
  | generate (input : Option Path) (settings : Settings)
  | batch (inputs : List Path) (settings : Settings)
  deriving DecidableEq, Repr

/-- Why a command line is not understood. -/
inductive UsageError where
  | unknownOption
  | missingArgument
  | unusedArgument
  | badValue
  deriving DecidableEq, Repr

/-- Variables of the environment with their values. -/
abbrev Environment := List (Text × Text)

/-- The value of a variable. -/
def Environment.value? (environment : Environment) (name : Text) : Option Text :=
  (environment.find? fun item => item.1 = name).map (·.2)

/-! ## Options -/

/-- The options that take a value. -/
inductive ValueOption where
  | input
  | library
  | paths
  deriving DecidableEq, Repr

/-- How an option is written. -/
def ValueOption.word : ValueOption → Text
  | input => "--input"
  | library => "--library-dir"
  | paths => "--paths"

/-- The variable that stands in for an option. -/
def ValueOption.variableName : ValueOption → Text
  | input => "INPUT_INPUT"
  | library => "INPUT_LIBRARY_DIR"
  | paths => "INPUT_PATHS"

/-- How the switch for logging is given: set by its name alone, or with a text for its value. -/
inductive Switch where
  | on (value : Bool)
  | spelled (value : Text)
  deriving DecidableEq, Repr

/-- The options found in some words, each value option with its values in order, and the words that
belong to none. -/
structure Words where
  values : List (ValueOption × Text) := []
  verbose : Option Switch := none
  others : List Text := []

/-- A number as it may follow a minus sign: digits, with at most one point, and an exponent. -/
def isUnsignedNumber (text : Text) : Bool :=
  let whole := text.takeWhile CodePoint.isAsciiDigit
  let behind := text.dropWhile CodePoint.isAsciiDigit
  let (fraction, behind) : Text × Text :=
    match behind with
    | c :: rest =>
      if c = '.' then (rest.takeWhile CodePoint.isAsciiDigit, rest.dropWhile CodePoint.isAsciiDigit)
      else ([], behind)
    | [] => ([], [])
  let exponentOk : Bool :=
    match behind with
    | [] => true
    | c :: rest =>
      let digits :=
        match rest with
        | sign :: digits => if sign = '+' ∨ sign = '-' then digits else rest
        | [] => []
      (c = 'e' || c = 'E') && !digits.isEmpty && digits.all CodePoint.isAsciiDigit
  !(whole.isEmpty && fraction.isEmpty) && exponentOk

/-- Whether a word looks like an option: it starts with a hyphen and is no number. -/
def isOptionLike (word : Text) : Bool :=
  match word with
  | c :: rest => c = '-' && !isUnsignedNumber rest
  | [] => false

/-- A word up to its first equals sign, and what follows the sign. -/
def splitWord (word : Text) : Text × Option Text :=
  match word.dropWhile (· ≠ .scalar '=') with
  | [] => (word, none)
  | _ :: value => (word.takeWhile (· ≠ .scalar '='), some value)

/-- Words up to a double hyphen are read for the given options; those behind it belong to none. -/
def Words.read (known : List ValueOption) (found : Words) : List Text → Except UsageError Words
  | [] => .ok found
  | word :: words =>
    if word = "--" then .ok { found with others := found.others ++ words }
    else
      let (name, value?) := splitWord word
      if name = "--verbose" then
        let switch := match value? with
          | none => Switch.on true
          | some value => .spelled value
        Words.read known { found with verbose := some switch } words
      else if name = "--no-verbose" ∧ value?.isNone then
        Words.read known { found with verbose := some (.on false) } words
      else
        match known.find? fun option => option.word = name, value? with
        | none, _ => Words.read known { found with others := found.others ++ [word] } words
        | some option, some value =>
          Words.read known { found with values := found.values ++ [(option, value)] } words
        | some option, none =>
          match words with
          | [] => .error .missingArgument
          | value :: rest =>
            if isOptionLike value then .error .missingArgument
            else Words.read known { found with values := found.values ++ [(option, value)] } rest

namespace Words

/-- The values of an option, in order. -/
def valuesOf (words : Words) (option : ValueOption) : List Text :=
  (words.values.filter fun item => item.1 = option).map (·.2)

/-- The value of an option, or else of its variable. -/
def value? (words : Words) (environment : Environment) (option : ValueOption) : Option Text :=
  match (words.valuesOf option).getLast? with
  | some value => some value
  | none => environment.value? option.variableName

end Words

/-! ## Commands -/

/-- The truth value that a word names, in any case. -/
def truthOf? (word : Text) : Option Bool :=
  let word := Text.lower word
  let yes : List Text := ["yes", "y", "1", "true", "t"]
  let no : List Text := ["no", "n", "0", "false", "f"]
  if yes.contains word then some true else if no.contains word then some false else none

/-- The directory that components go to unless another one is given. -/
def defaultLibrary : Path :=
  Path.ofText "library"

/-- The settings that words and environment give. -/
def Settings.ofWords (words : Words) (environment : Environment) : Except UsageError Settings :=
  let library := ((words.value? environment .library).map Path.ofText).getD defaultLibrary
  let switch :=
    match words.verbose with
    | some switch => some switch
    | none => (environment.value? "INPUT_VERBOSE").map .spelled
  match switch with
  | none => .ok ⟨library, false⟩
  | some (.on verbose) => .ok ⟨library, verbose⟩
  | some (.spelled word) =>
    match truthOf? word with
    | some verbose => .ok ⟨library, verbose⟩
    | none => .error .badValue

/-- Words that no option and no place took. -/
def refuseOthers (others : List Text) : Except UsageError Unit :=
  if others.any isOptionLike then .error .unknownOption
  else if others.isEmpty then .ok ()
  else .error .unusedArgument

/-- The command that generates one component. -/
def Command.ofGenerateWords (environment : Environment) (words : List Text) :
    Except UsageError Command := do
  let found ← Words.read [.input, .library] {} words
  let settings ← Settings.ofWords found environment
  refuseOthers found.others
  .ok (.generate ((found.value? environment .input).map Path.ofText) settings)

/-- The command that generates several components. The words that belong to no option are the
request files, unless these are given by an option; in the environment they stand between colons. -/
def Command.ofBatchWords (environment : Environment) (words : List Text) :
    Except UsageError Command := do
  let found ← Words.read [.library, .paths] {} words
  let named := found.valuesOf .paths
  if named.isEmpty && found.others.any isOptionLike then .error .unknownOption
  let given := if named.isEmpty then found.others else named
  let settings ← Settings.ofWords found environment
  let inputs :=
    if given.isEmpty then
      ((environment.value? ValueOption.paths.variableName).map (Text.splitOn ':')).getD []
    else given
  if inputs.isEmpty then .error .missingArgument
  refuseOthers (if named.isEmpty then [] else found.others)
  .ok (.batch (inputs.map Path.ofText) settings)

/-- The command that the words of a command line give, with the variables of the environment. -/
def Command.ofWords (environment : Environment) (words : List Text) : Except UsageError Command :=
  match words with
  | word :: rest =>
    if word = "batch" then ofBatchWords environment rest else ofGenerateWords environment words
  | [] => ofGenerateWords environment []

end Stencil
