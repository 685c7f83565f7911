import QueryShaping.Command.FileSystem
import QueryShaping.Command.Notice

/-!
# Runs of the command

A run reads a document, shapes it and writes the result. It stops at the first thing that fails, and
nothing is written before all else went well. What a run asks of the system it runs on are five
operations, which may be performed by the system itself or on what is known of it.

## What this module delivers

- `Host`: the operations that a run asks for.
- `Run.command`: a run of the command, by the operations of a host.
- `Run.perform`: a run in given surroundings, with all that can be seen of it afterwards.
-/

set_option autoImplicit false

namespace QueryShaping

/-- What a run asks of the system that it runs on. -/
structure Host (m : Type → Type) where
  readFile : String → m (Except FileFault ByteArray)
  /-- Reads all that comes in. -/
  readInput : m (Except FileFault ByteArray)
  writeFile : String → ByteArray → m (Except FileFault Unit)
  print : String → m (Except FileFault Unit)
  /-- Gives lines of messages. -/
  tell : List String → m Unit

namespace Run

/-! ## What can fail -/

/-- Whether a path is a lone dash. Slashes and dots that lead nowhere else may follow it. -/
def isDash (path : String) : Bool :=
  match Path.parts path with
  | first :: rest => first == "-" && rest.all Path.isIdle
  | [] => false

/-- Where a document comes from or goes to: a path, or the standard stream. -/
def pathOf? (path : Option String) : Option String := path.filter (!isDash ·)

/-- Why a run fails. -/
inductive Failure where
  | unread (path : Option String) (cause : FileFault)
  | document (cause : Document.Failure)
  | unwritten (path : Option String) (cause : FileFault)

namespace Failure

/-- What could not be done. -/
def context : Failure → String
  | .unread path _ => "failed to read " ++ path.getD "stdin"
  | .document cause => cause.context
  | .unwritten path _ => "failed to write " ++ path.getD "stdout"

/-- Why it could not be done. -/
def cause : Failure → String
  | .unread _ cause => cause.message
  | .document cause => cause.cause
  | .unwritten _ cause => cause.message

/-- The lines in which a run tells of its failure. -/
def lines (f : Failure) : List String :=
  s!"Error: {f.context}".splitOn "\n" ++ ["", "Caused by:"]
    ++ (f.cause.splitOn "\n").map fun line => "    " ++ line

end Failure

/-! ## Shaping what was read -/

/-- The text that bytes spell. -/
def decode (bytes : ByteArray) : Except FileFault String :=
  match String.fromUTF8? bytes with
  | some s => .ok s
  | none => .error .notText

/-- The text of the shaped document, or why there is none, and the messages until then. -/
def shape (pretty : Bool) (text : String) : List Notice × Except Failure String :=
  match Document.ofText text with
  | .error cause => ([], .error (.document cause))
  | .ok d =>
    (d.notices, (d.shape.map (Document.text pretty)).mapError .document)

/-- The lines of the messages that a run gives. -/
def noticeLines (verbose : Bool) (notices : List Notice) : List String :=
  (notices.filter (·.isGiven verbose)).flatMap Notice.lines

/-! ## Runs by the operations of a host -/

/-- The name and version of the command. -/
def versionLine : String := "qshape 0.1.0\n"

/-- How the command is used. -/
def usageLine : String := "Usage: qshape [-v] compile [-i FILE] [-o FILE] [--pretty]\n"

section Host

variable {m : Type → Type} [Monad m] (host : Host m)

/-- Reads the bytes of the document. -/
def fetch (o : Options) : m (Except FileFault ByteArray) :=
  match pathOf? o.input with
  | some path => host.readFile path
  | none => host.readInput

/-- Tells of a failure, which ends the run. -/
def fail (f : Failure) : m Nat := do
  host.tell f.lines
  return 1

/-- Writes the text of the shaped document to where it goes. -/
def deliver (o : Options) (text : String) : m Nat :=
  match pathOf? o.output with
  | some path => do
    match ← host.writeFile path text.toUTF8 with
    | .ok () =>
      host.tell (Notice.wrote path).lines
      return 0
    | .error cause => fail host (.unwritten (some path) cause)
  | none => do
    match ← host.print (text ++ "\n") with
    | .ok () => return 0
    | .error cause => fail host (.unwritten none cause)

/-- A run of the subcommand. The result is the code that the run ends with. -/
def compile (verbose : Bool) (o : Options) : m Nat := do
  host.tell (noticeLines verbose [.started o])
  match (← fetch host o).bind decode with
  | .error cause => fail host (.unread (pathOf? o.input) cause)
  | .ok text =>
    let (notices, result) := shape o.pretty text
    host.tell (noticeLines verbose notices)
    match result with
    | .error f => fail host f
    | .ok out => deliver host o out

/-- A run of the command, given the variable of the environment and the arguments. -/
def command (setting : Option String) (args : List String) : m Nat :=
  match Invocation.ofArgs setting args with
  | .refused => do
    host.tell [usageLine]
    return 2
  | .version => do
    let _ ← host.print versionLine
    return 0
  | .help => do
    let _ ← host.print usageLine
    return 0
  | .compile verbose o => compile host verbose o

end Host

/-! ## Runs in given surroundings -/

/-- What a run finds. -/
structure Surroundings where
  /-- The bytes that come in, or why they cannot be read. -/
  stdin : Except FileFault ByteArray
  /-- Why nothing can be printed, if nothing can. -/
  closed : Option FileFault
  files : FileSystem

/-- What can be seen of a run. -/
structure Trace where
  stdout : String
  stderr : List String
  files : FileSystem

/-- Surroundings perform the operations of a run on what can be seen of it. -/
def Surroundings.host (w : Surroundings) : Host (StateM Trace) where
  readFile path := fun t => (t.files.read path, t)
  readInput := fun t => (w.stdin, t)
  writeFile path content := fun t =>
    ((t.files.write path content).1, { t with files := (t.files.write path content).2 })
  print text := fun t =>
    match w.closed with
    | some cause => (.error cause, t)
    | none => (.ok (), { t with stdout := t.stdout ++ text })
  tell lines := fun t => ((), { t with stderr := t.stderr ++ lines })

/-- What can be seen of a run that has ended. -/
structure Report extends Trace where
  code : Nat

/-- A run of the command in given surroundings. -/
def perform (setting : Option String) (args : List String) (w : Surroundings) : Report :=
  let (code, t) := command w.host setting args ⟨"", [], w.files⟩
  ⟨t, code⟩

end Run

end QueryShaping
