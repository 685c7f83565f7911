/-!
# Files

The command reads and writes files by their paths. A path is followed name by name, from the root or
from the working directory, and leads to a location. Files are kept under their locations.

## What this module delivers

- `FileSystem.target`: where a path leads, or why it leads nowhere.
- `FileSystem.read`, `FileSystem.openToWrite`, `FileSystem.write`: reading and writing the file at a
  path, or why it fails.
-/

set_option autoImplicit false

namespace QueryShaping

/-- Why a file cannot be read or written. -/
inductive FileFault where
  | missing
  | isDirectory
  | notDirectory
  /-- The bytes of the file spell no text. -/
  | notText
  /-- Any other fault, in the words of the system. -/
  | other (message : String)
  deriving DecidableEq, Repr

/-- The wording of a fault. -/
def FileFault.message : FileFault → String
  | .missing => "No such file or directory (os error 2)"
  | .isDirectory => "Is a directory (os error 21)"
  | .notDirectory => "Not a directory (os error 20)"
  | .notText => "stream did not contain valid UTF-8"
  | .other message => message

/-! ## Paths -/

namespace Path

/-- The characters between the slashes of a path. -/
def splitSlashes : List Char → List (List Char)
  | [] => [[]]
  | '/' :: rest => [] :: splitSlashes rest
  | c :: rest =>
    match splitSlashes rest with
    | [] => [[c]]
    | part :: parts => (c :: part) :: parts

/-- The parts of a path. -/
def parts (path : String) : List String := (splitSlashes path.toList).map String.ofList

/-- The names in a path. -/
def names (path : String) : List String := (parts path).filter fun part => !part.isEmpty

/-- Whether a path begins with a slash. -/
def isRooted (path : String) : Bool := path.toList.head? == some '/'

/-- Whether a path ends with a slash. -/
def endsInSlash (path : String) : Bool := path.toList.getLast? == some '/'

/-- Whether a part of a path leads nowhere else. -/
def isIdle (part : String) : Bool := part.isEmpty || part == "."

end Path

/-! ## Locations -/

/-- The names that lead from the root to a file or a directory. -/
abbrev Location := List String

/-- What a file is opened for. -/
inductive Access where
  | reading
  | writing
  deriving DecidableEq, Repr

/-- Files and directories, as a run of the command sees them. -/
structure FileSystem where
  files : List (Location × ByteArray)
  /-- Directories apart from those that the files and the working directory are in. -/
  directories : List Location
  /-- The working directory, where paths begin that do not begin with a slash. -/
  current : Location
  /-- Why the system does not open what is at a location, in its own words. -/
  refusal? : Access → Location → Option String
  /-- How many bytes the system writes to a location at most, and why not more, in its own words. -/
  shortage? : Location → Option (Nat × String)

namespace FileSystem

/-- The content of the file at a location. -/
def find? (fs : FileSystem) (l : Location) : Option ByteArray := fs.files.lookup l

/-- Whether there is a directory at a location. All locations on the way to a directory or to a file
are those of directories. -/
def isDirectory (fs : FileSystem) (l : Location) : Bool :=
  l.isPrefixOf fs.current || fs.directories.any (l.isPrefixOf ·)
    || fs.files.any fun file => l != file.1 && l.isPrefixOf file.1

/-- Goes on from a directory to another one. -/
def step (fs : FileSystem) (l : Location) (name : String) : Except FileFault Location :=
  if name = ".." then .ok l.dropLast
  else if Path.isIdle name then .ok l
  else if (fs.find? (l ++ [name])).isSome then .error .notDirectory
  else if fs.isDirectory (l ++ [name]) then .ok (l ++ [name])
  else .error .missing

/-- Where a path leads. -/
structure Target where
  location : Location
  /-- Whether a slash follows the last name, so that a directory is asked for. -/
  slash : Bool
  deriving DecidableEq, Repr

/-- Where a path leads, or why it leads nowhere. There need not be anything under the last name. -/
def target (fs : FileSystem) (path : String) : Except FileFault Target :=
  let start := if Path.isRooted path then [] else fs.current
  match (Path.names path).getLast? with
  | none => if path.isEmpty then .error .missing else .ok ⟨start, true⟩
  | some last => do
    let l ← (Path.names path).dropLast.foldlM fs.step start
    if last = ".." then return ⟨l.dropLast, true⟩
    else if last = "." then return ⟨l, true⟩
    else return ⟨l ++ [last], Path.endsInSlash path⟩

/-! ## Reading and writing -/

/-- Whether the system opens what is at a location. -/
def allow (fs : FileSystem) (access : Access) (l : Location) : Except FileFault Unit :=
  match fs.refusal? access l with
  | some words => .error (.other words)
  | none => .ok ()

/-- Reads the file at a path. A directory can be opened, but it cannot be read. -/
def read (fs : FileSystem) (path : String) : Except FileFault ByteArray := do
  let t ← fs.target path
  match fs.find? t.location with
  | some content =>
    if t.slash then .error .notDirectory
    else do
      fs.allow .reading t.location
      return content
  | none =>
    if fs.isDirectory t.location then do
      fs.allow .reading t.location
      .error .isDirectory
    else .error .missing

/-- Opens the file at a path, or a new one, for writing. -/
def openToWrite (fs : FileSystem) (path : String) : Except FileFault Location := do
  let t ← fs.target path
  if t.slash || (fs.find? t.location).isNone && fs.isDirectory t.location then .error .isDirectory
  else do
    fs.allow .writing t.location
    return t.location

/-- Puts a file into a list of files, in place of an earlier one at its location. -/
def insert (l : Location) (content : ByteArray) :
    List (Location × ByteArray) → List (Location × ByteArray)
  | [] => [(l, content)]
  | (other, kept) :: rest =>
    if other = l then (l, content) :: rest else (other, kept) :: insert l content rest

/-- The files after one has got a content. -/
def put (fs : FileSystem) (l : Location) (content : ByteArray) : FileSystem :=
  { fs with files := insert l content fs.files }

/-- Writes the file at a path, and tells what the files are then. A file that was opened is emptied,
and keeps what was written to it before a fault. -/
def write (fs : FileSystem) (path : String) (content : ByteArray) :
    Except FileFault Unit × FileSystem :=
  match fs.openToWrite path with
  | .error cause => (.error cause, fs)
  | .ok l =>
    match fs.shortage? l with
    | some (size, words) =>
      if size < content.size then (.error (.other words), fs.put l (content.extract 0 size))
      else (.ok (), fs.put l content)
    | none => (.ok (), fs.put l content)

end FileSystem

end QueryShaping
