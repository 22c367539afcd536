import LiveExpr.CommandLine

/-!
The program: it reads the file that the arguments name, if they name one, and hands over to the command.
-/

open LiveExpr

/-- Whether a system code is the given one. It may come negated. -/
def isCode (code expected : UInt32) : Bool :=
  code == expected || code + expected == 0

/-- Why a file cannot be had. -/
def unreadable (error : IO.Error) : Unreadable :=
  match error with
  | .noFileOrDirectory .. => .missing
  | .permissionDenied .. => .forbidden
  | .inappropriateType _ code _ => if isCode code 20 then .throughFile else .directory
  | .invalidArgument _ code _ => if isCode code 36 then .nameTooLong else .other (toString error)
  | error => .other (toString error)

/-- The content of a file, or why it cannot be had. -/
def readContent (path : String) : IO (Except Unreadable Bytes) := do
  try
    let content ← IO.FS.readBinFile path
    pure (.ok content.toList)
  catch error => pure (.error (unreadable error))

def main (arguments : List String) : IO UInt32 := do
  match Command.ofArguments? arguments with
  | none =>
    IO.eprint Outcome.misuse.errors
    pure Outcome.misuse.status.toUInt32
  | some command =>
    let content ← match command.file with
      | some path => readContent path
      | none => pure (.ok [])
    match command.run (1 <<< 62) (fun _ => content) with
    | none => pure 1
    | some outcome =>
      IO.print outcome.output
      IO.eprint outcome.errors
      pure outcome.status.toUInt32
