import WireForm.Command

/-!
# The program

Reads files, prints what a run leaves and exits with its status.
-/

namespace WireForm

/-- The fault with an error number of the system. Opening a file gives the number negated, as a
    word of 32 bits, and reading gives it as it is. -/
def FileFault.ofNumber (number : UInt32) (text : String) : FileFault :=
  match min number (0 - number) with
  | 2 => .notFound
  | 20 => .notFolder
  | 21 => .isFolder
  | 36 => .nameTooLong
  | _ => .other text

/-- The reason why a file could not be read. -/
def FileFault.ofIO (error : IO.Error) : FileFault :=
  match error with
  | .noFileOrDirectory .. => .notFound
  | .permissionDenied .. => .other "Permission denied (os error 13)"
  | .inappropriateType _ number _ => .ofNumber number (toString error)
  | .invalidArgument _ number _ => .ofNumber number (toString error)
  | _ => .other (toString error)

/-- Reads a file. -/
def readFile (path : String) : IO (Except FileFault (List UInt8)) := do
  match ← (IO.FS.readBinFile path).toBaseIO with
  | .ok content => return .ok content.toList
  | .error error => return .error (.ofIO error)

end WireForm

/-- Runs the arguments of the process. The one file that a run may read is read beforehand. -/
def main (args : List String) : IO UInt32 := do
  let file ←
    match WireForm.Command.parse? args with
    | none => pure (.error .notFound)
    | some request => WireForm.readFile request.path
  let outcome := WireForm.Command.run { read := fun _ => file } args
  (← IO.getStdout).putStr outcome.stdout
  (← IO.getStderr).putStr outcome.stderr
  return outcome.status
