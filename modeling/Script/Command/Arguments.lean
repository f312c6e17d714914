import Script.Compilation

/-! # Command line arguments

Arguments are read from left to right, and the first fault or the first request for the version
settles the outcome. The value of an option follows an equals sign, or is the next argument if that
does not begin with a dash.
-/

namespace Script

namespace Command

/-- An argument, or one letter of an argument that begins with a single dash. -/
inductive Argument where
  | option (name : String) (value : Option String)
  | flag (letter : Char)
  | word (text : String)
  /-- Nothing after it is an option. -/
  | separator
deriving DecidableEq

structure Options where
  path : String
  emit : Emit
  verbose : Bool
deriving DecidableEq

inductive Request where
  | version
  | compile (options : Options)
deriving DecidableEq

inductive UsageError where
  | missingPath
  | emptyPath
  | missingValue (name : String)
  | unknownEmit (value : String)
  | repeated (name : String)
  | unexpected (argument : Argument)
deriving DecidableEq

structure Given where
  path : Option String
  emit : Option Emit
  verbose : Bool

namespace Argument

/-- A lone dash is a word. -/
def ofText (text : String) : List Argument :=
  match text.toList with
  | ['-', '-'] => [separator]
  | '-' :: '-' :: rest =>
    let name := String.ofList (rest.takeWhile (· ≠ '='))
    match rest.dropWhile (· ≠ '=') with
    | [] => [option name none]
    | _ :: value => [option name (some (String.ofList value))]
  | '-' :: letter :: letters => (letter :: letters).map flag
  | _ => [word text]

end Argument

namespace Given

def setPath (given : Given) (value : String) : Except UsageError Given :=
  if given.path.isSome then .error (.repeated "src")
  else if value = "" then .error .emptyPath
  else .ok { given with path := some value }

def setEmit (given : Given) (value : String) : Except UsageError Given :=
  match given.emit, Emit.ofName? value with
  | some _, _ => .error (.repeated "emit")
  | none, some emit => .ok { given with emit := some emit }
  | none, none => .error (.unknownEmit value)

def setVerbose (given : Given) : Except UsageError Given :=
  if given.verbose then .error (.repeated "verbose") else .ok { given with verbose := true }

/-- Statements are shown unless something else is asked for. -/
def request (given : Given) : Except UsageError Request :=
  match given.path with
  | none => .error .missingPath
  | some path => .ok (.compile ⟨path, given.emit.getD .ast, given.verbose⟩)

/-- The request that the arguments seen so far and those still to come amount to. A help page is
left out: `--help` and `-h` are refused like other options that are not known. -/
def read (given : Given) : List Argument → Except UsageError Request
  | [] => given.request
  | [.separator] => given.request
  | .option "src" (some value) :: rest => do (← given.setPath value).read rest
  | .option "src" none :: .word value :: rest => do (← given.setPath value).read rest
  | .option "src" none :: _ => .error (.missingValue "src")
  | .option "emit" (some value) :: rest => do (← given.setEmit value).read rest
  | .option "emit" none :: .word value :: rest => do (← given.setEmit value).read rest
  | .option "emit" none :: _ => .error (.missingValue "emit")
  | .option "verbose" none :: rest => do (← given.setVerbose).read rest
  | .flag 'v' :: rest => do (← given.setVerbose).read rest
  | .option "version" none :: _ => .ok .version
  | .flag 'V' :: _ => .ok .version
  | .separator :: argument :: _ => .error (.unexpected argument)
  | argument :: _ => .error (.unexpected argument)

end Given

def readArguments (arguments : List String) : Except UsageError Request :=
  Given.read ⟨none, none, false⟩ (arguments.flatMap Argument.ofText)

namespace UsageError

def message : UsageError → String
  | missingPath => "the option --src is required"
  | emptyPath => "the option --src needs a path that is not empty"
  | missingValue name => "the option --" ++ name ++ " needs a value"
  | unknownEmit value => "the option --emit is tokens, ast or all, not " ++ Text.quoteString value
  | repeated name => "the option --" ++ name ++ " is given twice"
  | unexpected (.option name _) => "unexpected option --" ++ name
  | unexpected (.flag letter) => "unexpected option -" ++ letter.toString
  | unexpected (.word text) => "unexpected argument " ++ Text.quoteString text
  | unexpected .separator => "unexpected argument --"

end UsageError

end Command

end Script
