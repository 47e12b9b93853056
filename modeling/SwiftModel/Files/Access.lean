/- What the program asks of the files it works on. -/
import SwiftModel.Files.FileSystem

namespace SwiftModel.Files

inductive EntryKind
  | file
  | directory
deriving DecidableEq

class FileAccess (m : Type → Type) where
  readText : Path → m (Except Problem String)
  writeText : Path → String → m (Except Problem Unit)
  /-- Makes one directory, inside one that is there. -/
  makeDirectory : Path → m (Except Problem Unit)
  kind? : Path → m (Option EntryKind)
  /-- The names in a directory, in any order. -/
  names : Path → m (Except Problem (List String))

/-- The new state of a change that may fail, and whether it did; a failure changes nothing. -/
def attempt (change : FileSystem → Except Problem FileSystem) : StateM FileSystem (Except Problem Unit) :=
  fun files =>
    match change files with
    | .ok changed => (.ok (), changed)
    | .error problem => (.error problem, files)

def Entry.kind : Entry → EntryKind
  | .file _ => .file
  | .directory => .directory

instance : FileAccess (StateM FileSystem) where
  readText path := fun files => (files.readText path, files)
  writeText path text := attempt (·.writeText path text)
  makeDirectory path := attempt (·.makeDirectory path)
  kind? path := fun files => ((files.find path).toOption.map Entry.kind, files)
  names path := fun files => (.ok (files.names path), files)

instance {ε : Type} {m : Type → Type} [Monad m] [FileAccess m] : FileAccess (ExceptT ε m) where
  readText path := ExceptT.lift (FileAccess.readText path)
  writeText path text := ExceptT.lift (FileAccess.writeText path text)
  makeDirectory path := ExceptT.lift (FileAccess.makeDirectory path)
  kind? path := ExceptT.lift (FileAccess.kind? path)
  names path := ExceptT.lift (FileAccess.names path)

variable {m : Type → Type} [Monad m] [FileAccess m]

def isDirectory (path : Path) : m Bool := do
  return (← FileAccess.kind? path) == some .directory

/-- Makes a directory that may be there already, if no file is in its place. -/
def makeIfAbsent (path : Path) : m (Except Problem Unit) := do
  match ← FileAccess.makeDirectory path with
  | .ok () => return .ok ()
  | .error problem => return if ← isDirectory path then .ok () else .error problem

/-- Makes a directory and the directories it is in, up to `levels` of them. -/
def makeWithParents : Nat → Path → m (Except Problem Unit)
  | 0, _ => return .error .notFound
  | levels + 1, path => do
    if path.text.isEmpty then return .ok ()
    match ← FileAccess.makeDirectory path with
    | .ok () => return .ok ()
    | .error .notFound =>
      match path.parent? with
      | none => return .error .notFound
      | some parent =>
        match ← makeWithParents levels parent with
        | .error problem => return .error problem
        | .ok () => makeIfAbsent path
    | .error problem => return if ← isDirectory path then .ok () else .error problem

def makeDirectories (path : Path) : m (Except Problem Unit) :=
  makeWithParents (path.text.length + 1) path

end SwiftModel.Files
