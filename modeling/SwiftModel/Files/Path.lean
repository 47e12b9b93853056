/- File paths as they are written, and their parts. -/
import SwiftModel.Text.Pieces

namespace SwiftModel.Files

/-- A path, kept as it is written. -/
structure Path where
  text : String
deriving DecidableEq, Inhabited

namespace Path

def isAbsolute (path : Path) : Bool := path.text.toList.head? == some '/'

/-- What stands between the slashes of a path, without the slash of the root. -/
def segments (path : Path) : List String :=
  match path.text.toList with
  | '/' :: rest => (Text.pieces '/' rest).map String.ofList
  | rest => (Text.pieces '/' rest).map String.ofList

/-- Drops segments that name nothing from the end of a path, whose segments come last one first.
A lone point names nothing, save at the front of a path that is not absolute. -/
def dropNothing (absolute : Bool) : List String → List String
  | [] => []
  | segment :: before =>
    if segment.isEmpty || (segment == "." && (absolute || !before.isEmpty)) then
      dropNothing absolute before
    else segment :: before

/-- The segments of a path, last one first, from the last that names something on. -/
def reversed (path : Path) : List String :=
  dropNothing path.isAbsolute path.segments.reverse

/-- The path with these segments, last one first. -/
def ofReversed (absolute : Bool) (segments : List String) : Path :=
  ⟨(if absolute then "/" else "") ++ "/".intercalate segments.reverse⟩

/-- The path up to its last component, as it is written; the root and the empty path have none. -/
def parent? (path : Path) : Option Path :=
  match path.reversed with
  | [] => none
  | _ :: before => some (ofReversed path.isAbsolute (dropNothing path.isAbsolute before))

/-- The last component, if it is a name. -/
def fileName? (path : Path) : Option String :=
  match path.reversed with
  | [] => none
  | name :: _ => if name = ".." ∨ name = "." then none else some name

/-- A name up to its last point; a point at the front of a name does not count. -/
def stemOf (name : String) : String :=
  let reversed := name.toList.reverse
  match reversed.dropWhile (· != '.') with
  | [] | ['.'] => name
  | _ :: stem => .ofList stem.reverse

def fileStem? (path : Path) : Option String := path.fileName?.map stemOf

/-- A path inside a directory; an absolute path stays as it is. -/
def join (directory : Path) (path : Path) : Path :=
  if path.isAbsolute then path
  else
    match directory.text.toList.getLast? with
    | none => path
    | some '/' => ⟨directory.text ++ path.text⟩
    | some _ => ⟨directory.text ++ "/" ++ path.text⟩

/-- The components of a path. Two paths with the same components are the same path for this
program. -/
def components (path : Path) : Bool × List String :=
  let named :=
    match path.segments with
    | [] => []
    | first :: rest =>
      (if first.isEmpty || (first == "." && path.isAbsolute) then [] else [first])
        ++ rest.filter fun segment => !(segment.isEmpty || segment == ".")
  (path.isAbsolute, named)

/-- The components one after the other, with the root in front of those of an absolute path. -/
def steps (path : Path) : List (Option String) :=
  (if path.components.1 then [none] else []) ++ path.components.2.map some

/-- The root comes before a point, a point before two, and two points before all names. -/
def stepRank : Option String → Nat
  | none => 0
  | some name => if name = "." then 1 else if name = ".." then 2 else 3

/-- Paths are ordered by their components, and names by their characters. -/
def order (path other : Path) : Ordering :=
  List.compareLex (fun a b => (compare (stepRank a) (stepRank b)).then (compare a b)) path.steps other.steps

end Path

end SwiftModel.Files
