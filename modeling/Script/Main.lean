import Script.Command.Run

/-! # The program

Files are read from the file system, and the output goes to the standard streams.
-/

namespace Script.Command

/-- Some error codes come with a minus sign, as 32-bit words. -/
def errorNumber (code : UInt32) : Nat :=
  min code.toNat (UInt32.size - code.toNat)

def readErrorOf : IO.Error → ReadError
  | .noFileOrDirectory .. => .notFound
  | .inappropriateType _ code reason => .system reason.capitalize (errorNumber code)
  | .permissionDenied _ code reason => .system reason.capitalize (errorNumber code)
  | error => .system error.toString 0

def readPath (path : String) : IO (Except ReadError String) := do
  try
    return decode (← IO.FS.readBinFile path)
  catch error =>
    return .error (readErrorOf error)

end Script.Command

def main (arguments : List String) : IO UInt32 := do
  let output ← Script.Command.run Script.Command.readPath arguments
  IO.print output.stdout
  IO.eprint output.stderr
  return UInt32.ofNat output.exitCode
