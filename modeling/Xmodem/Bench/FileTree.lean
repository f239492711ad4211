import Xmodem.IoError

/-!
# A tree of files

The directories and files of a system, with a directory to work in, and the rules by which a path
leads to a file that is to be written: each name on the path but the last has to lead to a
directory, the last one may name a file that is there or one that is to be made. Paths that begin
with a slash start at the root, all others in the working directory.
-/

namespace Xmodem.Bench

abbrev Location := List String

inductive Entry where
  | directory
  /-- A directory in which no file can be made, with the error for trying. -/
  | closed (error : IoError)
  | file (bytes : Array UInt8)
  /-- A device that takes all bytes and keeps none. -/
  | sink
  /-- A device that has no room for any byte. -/
  | full
  deriving Repr

namespace Entry

def isDirectory : Entry → Bool
  | directory | closed _ => true
  | _ => false

end Entry

namespace FileTree

/-! ### Errors -/

def systemError (kind : IoError.Kind) (text : String) (number : Nat) : IoError :=
  ⟨kind, text ++ s!" (os error {number})"⟩

def noSuchFile : IoError := systemError .notFound "No such file or directory" 2

def permissionDenied : IoError := systemError .permissionDenied "Permission denied" 13

def notADirectory : IoError := systemError .notADirectory "Not a directory" 20

def isADirectory : IoError := systemError .isADirectory "Is a directory" 21

def noSpace : IoError := systemError .storageFull "No space left on device" 28

def nameTooLong : IoError := systemError .invalidFilename "File name too long" 36

def nulInName : IoError := ⟨.invalidInput, "file name contained an unexpected NUL byte"⟩

/-! ### A fresh system -/

def systemDirectories : List Location :=
  [["bin"], ["boot"], ["dev"], ["dev", "shm"], ["etc"], ["home"], ["lib"], ["media"], ["mnt"],
    ["opt"], ["root"], ["run"], ["sbin"], ["srv"], ["tmp"], ["usr"], ["usr", "bin"],
    ["usr", "lib"], ["usr", "local"], ["usr", "share"], ["var"], ["var", "log"], ["var", "tmp"]]

/-- The fresh directory that the program works in. No path can spell its name, so paths lead into
it only from within. -/
def workingDirectory : Location :=
  ["tmp", "/"]

def systemEntries : List (Location × Entry) :=
  (workingDirectory :: systemDirectories).map (·, .directory) ++
    [(["proc"], .closed noSuchFile), (["sys"], .closed permissionDenied), (["dev", "null"], .sink),
      (["dev", "full"], .full), (["etc", "passwd"], .file #[])]

end FileTree

structure FileTree where
  entries : List (Location × Entry) := FileTree.systemEntries
  working : Location := FileTree.workingDirectory
  deriving Repr

namespace FileTree

/-! ### Paths -/

def maxName : Nat := 255

def maxPath : Nat := 4096

/-- The names on a path; slashes side by side count as one. -/
def names (path : String) : List String :=
  (path.splitOn "/").filter (· ≠ "")

/-- A name that stays at a directory or goes back from it. -/
def isDots (name : String) : Bool :=
  name = "." || name = ".."

/-- Where a name leads from a directory. The root is its own parent. -/
def follow (place : Location) (name : String) : Location :=
  if name = "." then place
  else if name = ".." then place.dropLast
  else place ++ [name]

variable (t : FileTree)

def entry? (place : Location) : Option Entry :=
  if place.isEmpty then some .directory else t.entries.lookup place

def start (path : String) : Location :=
  if path.startsWith "/" then [] else t.working

/-- Follows names to a directory, starting from the directory at `place`. -/
def descend (place : Location) : List String → Except IoError Location
  | [] => .ok place
  | name :: names =>
    if maxName < name.utf8ByteSize then .error nameTooLong
    else
      match t.entry? (follow place name) with
      | none => .error noSuchFile
      | some entry =>
        if entry.isDirectory then descend (follow place name) names else .error notADirectory

/-- The location of the file `name` of a directory, which is there or can be made. -/
def fileIn (place : Location) (name : String) : Except IoError Location :=
  match t.entry? place, t.entry? (place ++ [name]) with
  | some (.closed error), none => .error error
  | _, some .directory => .error isADirectory
  | _, some (.closed _) => .error isADirectory
  | _, _ => .ok (place ++ [name])

/-- The location of the file that is written under a path. A slash at the end asks for a directory,
whatever is there. -/
def resolve (path : String) : Except IoError Location := do
  if path.contains '\x00' then throw nulInName
  if path.isEmpty then throw noSuchFile
  if maxPath ≤ path.utf8ByteSize then throw nameTooLong
  let place ← t.descend (t.start path) (names path).dropLast
  let name := (names path).getLastD "."
  if isDots name ∨ path.endsWith "/" then throw isADirectory
  if maxName < name.utf8ByteSize then throw nameTooLong
  t.fileIn place name

/-! ### Operations -/

def put (place : Location) (entry : Entry) : FileTree :=
  { t with entries := (place, entry) :: t.entries.filter (·.1 ≠ place) }

/-- Makes a directory and those on the way to it. -/
def makeDirectory (path : String) : FileTree :=
  let make : FileTree × Location → String → FileTree × Location := fun (t, place) name =>
    let place := follow place name
    (if (t.entry? place).isSome then t else t.put place .directory, place)
  ((names path).foldl make (t, t.start path)).1

def write (path : String) (bytes : Array UInt8) : Except IoError Unit × FileTree :=
  match t.resolve path with
  | .error e => (.error e, t)
  | .ok place =>
    match t.entry? place with
    | some .sink => (.ok (), t)
    | some .full => (if bytes.isEmpty then .ok () else .error noSpace, t)
    | _ => (.ok (), t.put place (.file bytes))

def read? (path : String) : Option (Array UInt8) :=
  match t.resolve path with
  | .error _ => none
  | .ok place =>
    match t.entry? place with
    | some (.file bytes) => some bytes
    | some .sink => some #[]
    | _ => none

end FileTree

end Xmodem.Bench
