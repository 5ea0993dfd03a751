import DagDeploy.Decimal

/-! The arguments of the program: three paths in order, and options anywhere among them. An option
takes the next argument as its value, unless the value is attached to it; `--` ends the options. The
arguments are scanned from left to right, and the value of an argument is judged when the next one
that could also take a value or be one has come, or at the end. -/

namespace DagDeploy.CommandLine

/-- Why the arguments are not accepted, or what is shown instead of a run. -/
inductive Refusal where
  | missingArgument
  | unknownArgument
  | invalidValue
  | valueValidation
  | argumentConflict
  | tooManyValues
  | displayHelp
  | displayVersion
  deriving DecidableEq, Repr

def Refusal.name : Refusal → String
  | .missingArgument => "MissingRequiredArgument"
  | .unknownArgument => "UnknownArgument"
  | .invalidValue => "InvalidValue"
  | .valueValidation => "ValueValidation"
  | .argumentConflict => "ArgumentConflict"
  | .tooManyValues => "TooManyValues"
  | .displayHelp => "DisplayHelp"
  | .displayVersion => "DisplayVersion"

/-- Asking for help or the version is no mistake. -/
def Refusal.exitCode : Refusal → Nat
  | .displayHelp | .displayVersion => 0
  | _ => 2

structure Arguments where
  model : String
  solution : String
  folder : String
  iterations : Nat
  minSeconds : Nat
  catalogue : Option String
  deriving DecidableEq, Repr

inductive Key where
  | iterations
  | minSeconds
  | catalogue
  deriving DecidableEq, Repr

inductive Flag where
  | help
  | version
  deriving DecidableEq, Repr

/-- What the name of an option stands for. -/
inductive Name where
  | key (key : Key)
  | flag (flag : Flag)
  deriving DecidableEq, Repr

def Name.ofLetter? : Char → Option Name
  | 'n' => some (.key .iterations)
  | 'S' => some (.key .minSeconds)
  | 't' => some (.key .catalogue)
  | 'h' => some (.flag .help)
  | 'V' => some (.flag .version)
  | _ => none

/-- Names are not abbreviated. -/
def Name.ofWord? : String → Option Name
  | "num-iters" => some (.key .iterations)
  | "min-seconds" => some (.key .minSeconds)
  | "tables" => some (.key .catalogue)
  | "help" => some (.flag .help)
  | "version" => some (.flag .version)
  | _ => none

/-- An argument that has come, and is judged later. -/
inductive Pending where
  | nothing
  | path (value : String)
  | option (key : Key) (value : Option String)
  deriving DecidableEq, Repr

/-- The accepted part of the arguments, with what is pending. -/
structure Scan where
  paths : List String
  iterations : Option Nat
  minSeconds : Option Nat
  catalogue : Option String
  pending : Pending
  pathsOnly : Bool
  deriving DecidableEq, Repr

namespace Scan

def start : Scan := ⟨[], none, none, none, .nothing, false⟩

/-- Counts as written in decimal, with an optional plus sign, below `2 ^ 64`. -/
def count? (text : String) : Option Nat :=
  let digits := match text.toList with
    | '+' :: rest => rest
    | whole => whole
  (Decimal.nat? digits).filter (· < Nat.pow 2 64)

def holds (scan : Scan) : Key → Bool
  | .iterations => scan.iterations.isSome
  | .minSeconds => scan.minSeconds.isSome
  | .catalogue => scan.catalogue.isSome

/-- Gives an option its value; each option has one at most. -/
def store (scan : Scan) (key : Key) (value : String) : Except Refusal Scan :=
  if scan.holds key then .error .argumentConflict
  else
    match key, count? value with
    | .iterations, some count => .ok { scan with iterations := some count }
    | .minSeconds, some count => .ok { scan with minSeconds := some count }
    | .iterations, none | .minSeconds, none => .error .valueValidation
    | .catalogue, _ =>
      if value.isEmpty then .error .invalidValue
      else .ok { scan with catalogue := some value }

def settle (scan : Scan) : Except Refusal Scan :=
  let clear := { scan with pending := .nothing }
  match scan.pending with
  | .nothing => .ok scan
  | .path value =>
    if value.isEmpty then .error .invalidValue else .ok { clear with paths := scan.paths ++ [value] }
  | .option _ none => .error .invalidValue
  | .option key (some value) => clear.store key value

def pathCount (scan : Scan) : Nat :=
  scan.paths.length + match scan.pending with
    | .path _ => 1
    | _ => 0

/-- A path too many is refused before the pending argument is judged. -/
def takePath (scan : Scan) (value : String) : Except Refusal Scan :=
  if 3 ≤ scan.pathCount then .error .unknownArgument
  else do
    let settled ← scan.settle
    return { settled with pending := .path value }

/-- An option, with the value attached to it. -/
def takeOption (scan : Scan) (name : Name) (attached : Option String) : Except Refusal Scan := do
  let settled ← scan.settle
  match name, attached with
  | .flag .help, _ => throw .displayHelp
  | .flag .version, _ => throw .displayVersion
  | .key key, some value => settled.store key value
  | .key key, none => return { settled with pending := .option key none }

/-- An option by its letter; all that follows the letter, less an equals sign, is its value. -/
def takeLetter (scan : Scan) (letter : Char) (rest : List Char) : Except Refusal Scan :=
  match Name.ofLetter? letter with
  | none => .error .unknownArgument
  | some name =>
    scan.takeOption name <|
      match rest with
      | [] => none
      | '=' :: value => some (String.ofList value)
      | value => some (String.ofList value)

/-- An option by its word; only an equals sign attaches a value. -/
def takeWord (scan : Scan) (text : List Char) : Except Refusal Scan :=
  let word := String.ofList (text.takeWhile (· ≠ '='))
  let attached := match text.dropWhile (· ≠ '=') with
    | [] => none
    | _ :: value => some (String.ofList value)
  match Name.ofWord? word with
  | none => .error .unknownArgument
  | some (.flag flag) =>
    if attached.isSome then .error .tooManyValues else scan.takeOption (.flag flag) none
  | some name => scan.takeOption name attached

/-- An argument that is no option is the value of the option before it, or else a path. -/
def takeValue (scan : Scan) (value : String) : Except Refusal Scan :=
  match scan.pending with
  | .option key none => .ok { scan with pending := .option key (some value) }
  | _ => scan.takePath value

def take (scan : Scan) (argument : String) : Except Refusal Scan :=
  if scan.pathsOnly then scan.takePath argument
  else
    match argument.toList with
    | ['-', '-'] => .ok { scan with pathsOnly := true }
    | '-' :: '-' :: text => scan.takeWord text
    | '-' :: letter :: rest => scan.takeLetter letter rest
    | _ => scan.takeValue argument

end Scan

def parse (arguments : List String) : Except Refusal Arguments := do
  let scan ← (← arguments.foldlM Scan.take Scan.start).settle
  match scan.paths with
  | [model, solution, folder] =>
    return {
      model, solution, folder
      iterations := scan.iterations.getD 10
      minSeconds := scan.minSeconds.getD 0
      catalogue := scan.catalogue }
  | _ => throw .missingArgument

end DagDeploy.CommandLine
