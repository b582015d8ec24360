import EncounterTimeline.Text.Utf8

/-! # Storage

Files and directories as a value. A path is a list of names from the directory in which everything stands; every
name but the last has to be a directory. An operation that fails tells its cause.
-/
namespace EncounterTimeline

inductive StorageError where
  | notFound
  | isDirectory
  | notDirectory
  | alreadyExists
  | notText
  deriving DecidableEq, Repr

def StorageError.message : StorageError → String
  | notFound => "No such file or directory (os error 2)"
  | isDirectory => "Is a directory (os error 21)"
  | notDirectory => "Not a directory (os error 20)"
  | alreadyExists => "File exists (os error 17)"
  | notText => "stream did not contain valid UTF-8"

inductive StorageEntry where
  | file (bytes : Text.Bytes)
  | directory
  deriving DecidableEq, Repr

abbrev Route := List String

def Route.ofPath (path : String) : Route :=
  ((path.toList.splitOn '/').map String.ofList).filter fun s => s ≠ "" ∧ s ≠ "."

def Route.fileName (path : String) : Option String := (Route.ofPath path).getLast?

def Route.parentPath (path : String) : String :=
  String.intercalate "/" (Route.ofPath path).dropLast

structure Storage where
  entries : List (Route × StorageEntry) := []
  deriving DecidableEq, Repr

namespace Storage

def entryAt (s : Storage) (route : Route) : Option StorageEntry :=
  if route.isEmpty then some .directory else s.entries.lookup route

def put (s : Storage) (route : Route) (entry : StorageEntry) : Storage :=
  ⟨(route, entry) :: s.entries.filter fun p => p.1 ≠ route⟩

def walk (s : Storage) (done : Route) : Route → Except StorageError (Option StorageEntry)
  | [] => .ok (s.entryAt done)
  | name :: rest =>
    match s.entryAt done with
    | some .directory => s.walk (done ++ [name]) rest
    | some (.file _) => .error .notDirectory
    | none => .error .notFound

/-- What a path leads to. It leads to nothing if only its last name is missing. -/
def find (s : Storage) (path : String) : Except StorageError (Option StorageEntry) :=
  s.walk [] (Route.ofPath path)

def read (s : Storage) (path : String) : Except StorageError Text.Bytes :=
  match s.find path with
  | .error e => .error e
  | .ok none => .error .notFound
  | .ok (some .directory) => .error .isDirectory
  | .ok (some (.file bytes)) => .ok bytes

def readText (s : Storage) (path : String) : Except StorageError String :=
  (s.read path).bind fun bytes =>
    match Text.decode bytes with
    | .ok cs => .ok (String.ofList cs)
    | .error _ => .error .notText

def update (s : Storage) (path : String) (f : Text.Bytes → Text.Bytes) : Except StorageError Storage :=
  match s.find path with
  | .error e => .error e
  | .ok (some .directory) => .error .isDirectory
  | .ok (some (.file bytes)) => .ok (s.put (Route.ofPath path) (.file (f bytes)))
  | .ok none => .ok (s.put (Route.ofPath path) (.file (f [])))

def write (s : Storage) (path : String) (bytes : Text.Bytes) : Except StorageError Storage :=
  s.update path fun _ => bytes

def append (s : Storage) (path : String) (bytes : Text.Bytes) : Except StorageError Storage :=
  s.update path (· ++ bytes)

/-- Creates the directories of a route that are missing, after those that stand at `done`. -/
def createFrom (s : Storage) (done : Route) : Route → Except StorageError Storage
  | [] => .ok s
  | name :: rest =>
    let here := done ++ [name]
    match s.entryAt here with
    | some .directory => s.createFrom here rest
    | some (.file _) => .error (if rest.isEmpty then .alreadyExists else .notDirectory)
    | none => (s.put here .directory).createFrom here rest

def createDirectories (s : Storage) (path : String) : Except StorageError Storage :=
  s.createFrom [] (Route.ofPath path)

def remove (s : Storage) (path : String) : Storage :=
  ⟨s.entries.filter fun p => !(Route.ofPath path).isPrefixOf p.1⟩

def directoryLength : Nat := 4096

def lengthOf (s : Storage) (path : String) : Except StorageError Nat :=
  match s.find path with
  | .error e => .error e
  | .ok none => .error .notFound
  | .ok (some .directory) => .ok directoryLength
  | .ok (some (.file bytes)) => .ok bytes.length

end Storage

end EncounterTimeline
