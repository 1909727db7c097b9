import TableExport.Decimal.Digits

/-!
# Command line arguments

Options are written `--name`, those with a value `--name value` or `--name=value`. Each may
be given once. The value that follows an option is only looked at when the next option is
read, or at the end, so a fault in what follows wins over a fault in the value.
-/
namespace TableExport

/-- Options without a value. -/
inductive Flag
  | version
  | authors
  | showConfiguration
  | checkStore
  | summary
  | exportMetadata
  | exportDisabledRules
  | exportLog
  deriving DecidableEq, Repr

/-- Options with a value. -/
inductive Parameter
  | output
  | outputDirectory
  | limit
  deriving DecidableEq, Repr

inductive Switch
  | flag (f : Flag)
  | parameter (p : Parameter)
  | help
  deriving DecidableEq, Repr

def Switch.ofName? (name : String) : Option Switch :=
  match name with
  | "version" => some (.flag .version)
  | "authors" => some (.flag .authors)
  | "show-configuration" => some (.flag .showConfiguration)
  | "check-s3-connection" => some (.flag .checkStore)
  | "summary" => some (.flag .summary)
  | "export-metadata" => some (.flag .exportMetadata)
  | "export-disabled-rules" => some (.flag .exportDisabledRules)
  | "export-log" => some (.flag .exportLog)
  | "output" => some (.parameter .output)
  | "output-dir" => some (.parameter .outputDirectory)
  | "limit" => some (.parameter .limit)
  | "help" => some .help
  | _ => none

structure Arguments where
  version : Bool := false
  authors : Bool := false
  showConfiguration : Bool := false
  checkStore : Bool := false
  output : Option String := none
  outputDirectory : String := "."
  limit : Option UInt32 := none
  summary : Bool := false
  exportMetadata : Bool := false
  exportDisabledRules : Bool := false
  exportLog : Bool := false
  deriving DecidableEq, Repr

inductive UsageError
  -- No option has this name, or the argument is no option.
  | unknownArgument
  -- A number is malformed or too large.
  | malformedValue
  -- A value is missing, or is empty where it must not be.
  | missingValue
  -- An option is given twice.
  | repeated
  -- An option without a value is given one.
  | unexpectedValue
  -- Help is asked for.
  | helpRequested
  deriving DecidableEq, Repr

namespace Arguments

def raise (arguments : Arguments) : Flag → Arguments
  | .version => { arguments with version := true }
  | .authors => { arguments with authors := true }
  | .showConfiguration => { arguments with showConfiguration := true }
  | .checkStore => { arguments with checkStore := true }
  | .summary => { arguments with summary := true }
  | .exportMetadata => { arguments with exportMetadata := true }
  | .exportDisabledRules => { arguments with exportDisabledRules := true }
  | .exportLog => { arguments with exportLog := true }

/-- A row limit: an integer of 32 bits without sign, with an optional plus. -/
def limit? (text : String) : Option UInt32 :=
  match Decimal.integer? text.toList with
  | some n => if 0 ≤ n ∧ n < UInt32.size then some (UInt32.ofNat n.toNat) else none
  | none => none

def assign (arguments : Arguments) (parameter : Parameter) (value : String) :
    Except UsageError Arguments :=
  match parameter with
  | .output => .ok { arguments with output := some value }
  | .outputDirectory =>
    if value = "" then .error .missingValue
    else .ok { arguments with outputDirectory := value }
  | .limit =>
    match limit? value with
    | some n => .ok { arguments with limit := some n }
    | none => .error .malformedValue

end Arguments

inductive Word
  -- `--` alone.
  | separator
  -- `--name` or `--name=value`.
  | long (name : String) (value : Option String)
  -- One hyphen and at least one letter.
  | short (first : Char)
  | plain (text : String)
  deriving DecidableEq, Repr

def Word.ofText (text : String) : Word :=
  match text.toList with
  | ['-', '-'] => .separator
  | '-' :: '-' :: rest =>
    let value := match rest.dropWhile (· ≠ '=') with
      | _ :: value => some (String.ofList value)
      | [] => none
    .long (String.ofList (rest.takeWhile (· ≠ '='))) value
  | '-' :: first :: _ => .short first
  | _ => .plain text

/-- A command line read in part: the options given so far, what they ask for, and the
parameter whose value has not been looked at yet. -/
structure Reading where
  given : List Switch := []
  arguments : Arguments := {}
  pending : Option (Parameter × Option String) := none
  deriving DecidableEq, Repr

namespace Reading

def note (r : Reading) (switch : Switch) : Except UsageError Reading :=
  if r.given.contains switch then .error .repeated
  else .ok { r with given := switch :: r.given }

def take (r : Reading) (parameter : Parameter) (value : String) : Except UsageError Reading := do
  let r ← r.note (.parameter parameter)
  let arguments ← r.arguments.assign parameter value
  pure { r with arguments := arguments }

/-- Looks at the value that is pending. -/
def settle (r : Reading) : Except UsageError Reading :=
  match r.pending with
  | none => .ok r
  | some (_, none) => .error .missingValue
  | some (parameter, some value) => { r with pending := none }.take parameter value

/-- Reads an option, with the value that is attached to it. -/
def option (r : Reading) (switch : Switch) (value : Option String) : Except UsageError Reading :=
  match switch, value with
  | .parameter parameter, some value => do (← r.settle).take parameter value
  | .parameter parameter, none => do
    let r ← r.settle
    pure { r with pending := some (parameter, none) }
  | .flag _, some _ | .help, some _ => .error .unexpectedValue
  | .flag flag, none => do
    let r ← (← r.settle).note (.flag flag)
    pure { r with arguments := r.arguments.raise flag }
  | .help, none => do
    let _ ← r.settle
    .error .helpRequested

/-- Reads one argument other than the separator. -/
def step (r : Reading) (text : String) : Except UsageError Reading :=
  match Word.ofText text, r.pending with
  | .long name value, _ =>
    match Switch.ofName? name with
    | some switch => r.option switch value
    | none => .error .unknownArgument
  | .short 'h', _ => r.option .help none
  | .plain text, some (parameter, none) => .ok { r with pending := some (parameter, some text) }
  | _, _ => .error .unknownArgument

/-- Reads the arguments that are left. No argument may follow the separator. -/
def finish (r : Reading) : List String → Except UsageError Arguments
  | [] => r.settle.map Reading.arguments
  | text :: rest =>
    if Word.ofText text = .separator then
      if rest.isEmpty then r.settle.map Reading.arguments else .error .unknownArgument
    else
      match r.step text with
      | .ok r => r.finish rest
      | .error e => .error e

end Reading

/-- Reads a command line without the name of the command. -/
def Arguments.parse (words : List String) : Except UsageError Arguments :=
  ({} : Reading).finish words

end TableExport
