import QueryShaping.Command.Run

/-!
# The program

Runs the command by the operations of the system.

## What this module delivers

- `main`: the command.
-/

set_option autoImplicit false

namespace QueryShaping

namespace Program

/-- Whether a code of an error, which may be negated, is the given one. -/
def isCode (code : UInt32) (expected : UInt32) : Bool := code == expected || code == 0 - expected

/-- The fault that an error of the system is. -/
def fileFault (e : IO.Error) : FileFault :=
  match e with
  | .noFileOrDirectory _ _ _ => .missing
  | .inappropriateType _ code _ =>
    if isCode code 20 then .notDirectory
    else if isCode code 21 then .isDirectory
    else .other (toString e)
  | e => .other (toString e)

/-- Tells apart what an operation gives and why it fails. -/
def attempt {α : Type} (operation : IO α) : IO (Except FileFault α) :=
  try return .ok (← operation) catch e => return .error (fileFault e)

/-- All bytes of a stream. -/
partial def readAll (stream : IO.FS.Stream) (before : ByteArray) : IO ByteArray := do
  let chunk ← stream.read 65536
  if chunk.isEmpty then return before
  readAll stream (before ++ chunk)

/-- The system performs the operations of a run. -/
def host : Host IO where
  readFile path := attempt (IO.FS.readBinFile path)
  readInput := attempt do readAll (← IO.getStdin) ByteArray.empty
  writeFile path content := attempt (IO.FS.writeBinFile path content)
  print text := attempt do
    IO.print text
    (← IO.getStdout).flush
  tell lines := lines.forM IO.eprintln

end Program

end QueryShaping

open QueryShaping in
/-- The command. -/
def main (args : List String) : IO UInt32 := do
  let code ← Run.command Program.host (← IO.getEnv "QSHAPE_VERBOSE") args
  return UInt32.ofNat code
