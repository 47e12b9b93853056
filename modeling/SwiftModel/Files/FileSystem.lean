/- Files and directories, and what reading and writing them does. -/
import SwiftModel.Files.Path

namespace SwiftModel.Files

inductive Content
  | text (text : String)
  /-- Bytes that are no text in UTF-8. -/
  | binary (bytes : List UInt8)
deriving DecidableEq

inductive Entry
  | file (content : Content)
  | directory
deriving DecidableEq

inductive Problem
  | notFound
  | isDirectory
  | exists
  | notDirectory
  | notText
  /-- A problem that only an operating system has. -/
  | other (text : String)
deriving DecidableEq

def Problem.message : Problem → String
  | .notFound => "No such file or directory (os error 2)"
  | .isDirectory => "Is a directory (os error 21)"
  | .exists => "File exists (os error 17)"
  | .notDirectory => "Not a directory (os error 20)"
  | .notText => "stream did not contain valid UTF-8"
  | .other text => text

/-- The names from the root to a file or directory. -/
abbrev Location := List String

/-- Entries at their locations, and the directory where relative paths begin. The root is a
directory. -/
structure FileSystem where
  entries : List (Location × Entry)
  current : Location
deriving DecidableEq, Inhabited

namespace FileSystem

def entry? (files : FileSystem) (location : Location) : Option Entry :=
  if location.isEmpty then some .directory else files.entries.lookup location

def put (files : FileSystem) (location : Location) (entry : Entry) : FileSystem :=
  if files.entries.any (·.1 == location) then
    { files with entries := files.entries.map fun e => if e.1 = location then (location, entry) else e }
  else { files with entries := files.entries ++ [(location, entry)] }

/-- One segment further: an empty one and a point stay, two points go up. -/
def next (location : Location) (segment : String) : Location :=
  if segment = "" ∨ segment = "." then location
  else if segment = ".." then location.dropLast
  else location ++ [segment]

/-- Follows segments; each must be looked up in a directory. -/
def follow (files : FileSystem) (location : Location) : List String → Except Problem Location
  | [] => .ok location
  | segment :: rest =>
    match files.entry? location with
    | none => .error .notFound
    | some (.file _) => .error .notDirectory
    | some .directory => files.follow (next location segment) rest

def start (files : FileSystem) (absolute : Bool) : Location := if absolute then [] else files.current

/-- The location of a path; the empty path has none. -/
def locate (files : FileSystem) (path : Path) : Except Problem Location :=
  if path.text.isEmpty then .error .notFound
  else files.follow (files.start path.isAbsolute) path.segments

def find (files : FileSystem) (path : Path) : Except Problem Entry := do
  match files.entry? (← files.locate path) with
  | some entry => return entry
  | none => throw .notFound

def readText (files : FileSystem) (path : Path) : Except Problem String := do
  match ← files.find path with
  | .directory => throw .isDirectory
  | .file (.binary _) => throw .notText
  | .file (.text text) => return text

/-- The location of a file that is to be written. A path that ends in a slash is one of a
directory, whatever is there. -/
def target (files : FileSystem) (path : Path) : Except Problem Location := do
  if path.text.isEmpty then throw .notFound
  let named := (path.segments.reverse.dropWhile String.isEmpty).reverse
  let location ← files.follow (files.start path.isAbsolute) named
  if named = path.segments then return location else throw .isDirectory

def writeText (files : FileSystem) (path : Path) (text : String) : Except Problem FileSystem := do
  let location ← files.target path
  match files.entry? location with
  | some .directory => throw .isDirectory
  | _ => return files.put location (.file (.text text))

def makeDirectory (files : FileSystem) (path : Path) : Except Problem FileSystem := do
  let location ← files.locate path
  match files.entry? location with
  | some _ => throw .exists
  | none => return files.put location .directory

def childName? (directory location : Location) : Option String :=
  match location.getLast? with
  | some name => if location.dropLast = directory then some name else none
  | none => none

def names (files : FileSystem) (path : Path) : List String :=
  match files.locate path with
  | .error _ => []
  | .ok directory => files.entries.filterMap fun e => childName? directory e.1

end FileSystem

end SwiftModel.Files
