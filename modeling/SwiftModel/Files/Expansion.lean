/- The paths that a pattern stands for. -/
import SwiftModel.Files.Access
import SwiftModel.Files.Wildcard

namespace SwiftModel.Files

structure Place where
  path : Path
  isDirectory : Bool

/-- A place, and the part of the pattern that its name must still match; nothing if it matched
already. -/
structure Candidate where
  place : Place
  rest : Option (List (List Wildcard))

structure PathPattern where
  absolute : Bool
  components : List (List Wildcard)
  /-- The pattern ends in a slash, and stands for directories alone. -/
  directoriesOnly : Bool

/-- The components of a pattern: its pieces, without the empty one behind a slash at its end. -/
def patternPieces (text : List Char) : List (List Char) :=
  match (Text.pieces '/' text).reverse with
  | [] :: before => before.reverse
  | all => all.reverse

/-- Reads a pattern: first all of it, so that a fault has its position in it, then each component.
-/
def PathPattern.ofText? (text : String) : Except PatternFault PathPattern := do
  let cs := text.toList
  let _ ← readPattern 0 none cs
  let absolute := cs.head? == some '/'
  let pieces := patternPieces (if absolute then cs.drop 1 else cs)
  return ⟨absolute, ← pieces.mapM (readPattern 0 none), cs.getLast? == some '/'⟩

def hasWildcards (text : String) : Bool := text.toList.any fun c => c == '*' || c == '?' || c == '['

def isRecursive (component : List Wildcard) : Bool := component.contains .anyDirectories

/-- The current directory, whose name is not put in front of what is in it. -/
def Path.isCurrent (path : Path) : Bool := path.components == (false, ["."])

def Place.inside (place : Place) (name : String) : Path :=
  if place.path.isCurrent then ⟨name⟩ else place.path.join ⟨name⟩

/-- A directory whose names cannot be told. -/
structure Unreadable where
  path : Path
  problem : Problem
deriving DecidableEq

def Unreadable.message (unreadable : Unreadable) : String :=
  "attempting to read \x60" ++ unreadable.path.text ++ "\x60 resulted in an error: "
    ++ unreadable.problem.message

/-- A search for paths, which one unreadable directory ends. -/
abbrev Search (m : Type → Type) (α : Type) := ExceptT Unreadable m α

variable {m : Type → Type} [Monad m] [FileAccess m]

def placeOf (path : Path) : Search m Place := do
  return ⟨path, ← isDirectory path⟩

def placesIn (place : Place) : Search m (List Place) := do
  match ← FileAccess.names place.path with
  | .error problem => throw ⟨place.path, problem⟩
  | .ok names =>
    (names.mergeSort fun a b => decide (a ≤ b)).mapM fun name => placeOf (place.inside name)

/-- The candidates at a place for the components of a pattern. A component without wildcards is looked
up and needs no match; otherwise every name in the place is a candidate, in ascending order. The names
for a directory itself and the one above it are candidates for a component that begins with a point. -/
def candidates : List (List Wildcard) → Place → Search m (List Candidate)
  | [], _ => return []
  | component :: rest, place => do
    let proceed (place : Place) : Search m (List Candidate) :=
      if rest.isEmpty then return [⟨place, none⟩] else candidates rest place
    match literalText? component with
    | some name =>
      let next ← placeOf (place.inside name)
      if name = "." ∨ name = ".." then
        if place.isDirectory then proceed next else return []
      else if (← FileAccess.kind? next.path).isSome then proceed next
      else return []
    | none =>
      if !place.isDirectory then return []
      let children ← placesIn place
      let special ←
        if component.head? = some (.literal '.') then
          ["..", "."].flatMapM fun name => do
            if matchesName component name.toList then
              proceed (← placeOf (place.path.join ⟨name⟩))
            else return []
        else pure []
      return special ++ children.map (⟨·, some (component :: rest)⟩)

/-- No path of an operating system leads through more directories. -/
def maximalLevels : Nat := 4096

/-- The paths that a candidate leads to. A component for any number of directories tries a directory's
content under the same component before it gives way to the next. -/
def matchesOf (directoriesOnly : Bool) : Nat → Candidate → Search m (List Path)
  | 0, _ => return []
  | _ + 1, ⟨place, none⟩ =>
    return if directoriesOnly && !place.isDirectory then [] else [place.path]
  | levels + 1, ⟨place, some components⟩ => do
    let below (components : List (List Wildcard)) : Search m (List Path) := do
      (← candidates components place).flatMapM (matchesOf directoriesOnly levels)
    let byName (components : List (List Wildcard)) : Search m (List Path) :=
      match components, place.path.fileName? with
      | component :: rest, some name =>
        if !matchesName component name.toList then return []
        else if !rest.isEmpty then below rest
        else return if directoriesOnly && !place.isDirectory then [] else [place.path]
      | _, _ => return []
    if !(components.head?.any isRecursive) then byName components
    else
      let rest := components.dropWhile isRecursive
      let named ←
        if !rest.isEmpty then byName rest
        else pure (if place.isDirectory then [place.path] else [])
      let deeper ← if place.isDirectory then below ([.anyDirectories] :: rest) else pure []
      return named ++ deeper

def expand (pattern : PathPattern) : Search m (List Path) := do
  let top ← placeOf ⟨if pattern.absolute then "/" else "."⟩
  (← candidates pattern.components top).flatMapM (matchesOf pattern.directoriesOnly maximalLevels)

end SwiftModel.Files
