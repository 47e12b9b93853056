/- Tables by path. What is filed under a path is found under every way to write it. -/
import SwiftModel.Files.Path

namespace SwiftModel.Files

/-- Entries in the order of their paths. Paths with the same components are one key, which stays as it was
first written. -/
abbrev Table (α : Type) := List (Path × α)

namespace Table

variable {α β : Type}

def isFor (path : Path) (entry : Path × α) : Bool := entry.1.components == path.components

def value? (table : Table α) (path : Path) : Option α := (table.find? (isFor path)).map Prod.snd

/-- Puts an entry in front of the first that comes behind it. -/
def place (entry : Path × α) : Table α → Table α
  | [] => [entry]
  | other :: table =>
    if entry.1.order other.1 == .lt then entry :: other :: table else other :: place entry table

/-- Changes what is filed under a path, or files something under it. -/
def alter (table : Table α) (path : Path) (change : Option α → α) : Table α :=
  if table.any (isFor path) then
    table.map fun entry => if isFor path entry then (entry.1, change (some entry.2)) else entry
  else place (path, change none) table

/-- Entries filed one after the other; of two for one path, the later counts. -/
def ofEntries (entries : List (Path × α)) : Table α :=
  entries.foldl (fun table entry => table.alter entry.1 fun _ => entry.2) []

/-- Items filed under their paths, those of one path in the order they have. -/
def grouped (path : β → Path) (items : List β) : Table (List β) :=
  items.foldl (fun table item => table.alter (path item) fun group => group.getD [] ++ [item]) []

end Table

end SwiftModel.Files
