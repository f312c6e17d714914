import Script.Command.Arguments
import Script.Command.Folder

/-! # The command

The command reads one file and shows its tokens or its statements on the standard output. Errors go
to the standard error, one on each line, and any error makes the exit code 1. Arguments that cannot
be understood make it 2.
-/

namespace Script

namespace Command

structure Output where
  exitCode : Nat
  stdout : String
  stderr : String
deriving DecidableEq

def versionOutput : Output :=
  ⟨0, "atelier 0.1.0\n", ""⟩

def usageOutput (error : UsageError) : Output :=
  ⟨2, "", "error: " ++ error.message ++ "\n"⟩

def readErrorOutput (path : String) (error : ReadError) : Output :=
  ⟨1, "", "Error: failed to read `" ++ path ++ "`\n\nCaused by:\n    " ++ error.message ++ "\n"⟩

def errorLine (message : String) : String :=
  "error: " ++ message ++ "\n"

def scanErrorOutput (error : ScanError) : Output :=
  ⟨1, "", errorLine error.message⟩

/-- What the errors of a compilation add up to; nothing is said when there are none. -/
def diagnosticsText (diagnostics : List Diagnostic) : String :=
  if diagnostics = [] then ""
  else
    String.join (diagnostics.map fun diagnostic => errorLine diagnostic.text) ++
      toString diagnostics.length ++ " error(s) reported\n"

/-- Nothing to show takes no line. -/
def compilationOutput (emit : Emit) (compilation : Compilation) : Output :=
  let shown := compilation.render emit
  { exitCode := if compilation.hasNoErrors then 0 else 1
    stdout := if shown = "" then "" else shown ++ "\n"
    stderr := diagnosticsText compilation.diagnostics }

def compileOutput (emit : Emit) (text : String) : Output :=
  match compile text with
  | .ok compilation => compilationOutput emit compilation
  | .error error => scanErrorOutput error

/-- The command with a way to read a file. -/
def run {m : Type → Type} [Monad m] (read : String → m (Except ReadError String))
    (arguments : List String) : m Output := do
  match readArguments arguments with
  | .error error => return usageOutput error
  | .ok .version => return versionOutput
  | .ok (.compile options) =>
    match ← read options.path with
    | .ok text => return compileOutput options.emit text
    | .error error => return readErrorOutput options.path error

end Command

end Script
