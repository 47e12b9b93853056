/- How the keys of a document become property names, and property names become type names. -/
import SwiftModel.Identifier.CamelCase
import SwiftModel.Unicode.Alphabetic
import SwiftModel.Unicode.Numeric

namespace SwiftModel.Identifier
open SwiftModel.Text SwiftModel.Unicode

inductive PropertyNaming
  /-- The key without its symbols. -/
  | verbatim
  /-- The key in camel case: `long_path` gives `longPath`. -/
  | camelFromSnake
deriving DecidableEq

inductive TypeNaming
  /-- All capitals: `info` gives `INFO`. -/
  | uppercase
  /-- Camel case with a capital in front: `long_path` gives `LongPath`. -/
  | camelFromSnake
deriving DecidableEq

def isAlphanumeric (c : Char) : Bool := isAlphabetic c || isNumeric c

def isNameCharacter (c : Char) : Bool := isAlphanumeric c || c == '_'

def withoutSymbols (name : List Char) : List Char := name.filter isNameCharacter

/-- The name that stands in for a key with nothing usable in it. -/
def fallback : List Char := "fixInvalidJSONKey".toList

/-- A name that is more than underscores and begins with no number. -/
def usable (name : List Char) : List Char :=
  if name.all (· == '_') then fallback
  else if name.head?.any isNumeric then '_' :: name
  else name

def PropertyNaming.spell : PropertyNaming → List Char → List Char
  | .verbatim, key => usable (withoutSymbols key)
  | .camelFromSnake, key => usable (camelCase (withoutSymbols key))

def TypeNaming.transform : TypeNaming → List Char → List Char
  | .uppercase, name => name.flatMap upper
  | .camelFromSnake, name => upperCamelCase name

/-- A type never takes the very name of its property: an underscore in front keeps them apart. -/
def TypeNaming.spell (naming : TypeNaming) (property : List Char) : List Char :=
  let name := usable (withoutSymbols (naming.transform property))
  if name = property then '_' :: name else name

/-- The singular of a plural type name; a name of one letter keeps its `s`. -/
def singular (name : List Char) : List Char :=
  match name.reverse with
  | 's' :: 'e' :: 'i' :: 't' :: stem => stem.reverse ++ ['t', 'y']
  | 's' :: stem => if stem.any isAlphanumeric then stem.reverse else name
  | _ => name

theorem singular_cases (name : List Char) :
    (∃ stem, name = stem ++ ['t', 'i', 'e', 's'] ∧ singular name = stem ++ ['t', 'y']) ∨
    (∃ stem, name = stem ++ ['s'] ∧ (∃ c ∈ stem, isAlphanumeric c = true) ∧ singular name = stem) ∨
    singular name = name := by
  rw [singular]
  split
  next stem found =>
    left
    refine ⟨stem.reverse, ?_, rfl⟩
    rw [← List.reverse_reverse name, found]
    simp
  next stem _ found =>
    right
    split
    next letters =>
      left
      obtain ⟨c, member, letter⟩ := List.any_eq_true.mp letters
      refine ⟨stem.reverse, ?_, ⟨c, List.mem_reverse.mpr member, letter⟩, rfl⟩
      rw [← List.reverse_reverse name, found, List.reverse_cons]
    · exact .inr rfl
  next => exact .inr (.inr rfl)

def PropertyNaming.identifier (naming : PropertyNaming) (key : String) : String :=
  .ofList (naming.spell key.toList)

def TypeNaming.typeName (naming : TypeNaming) (property : String) : String :=
  .ofList (naming.spell property.toList)

/-- The name of the type that a property holds or, with `singularize`, of the elements of the
array it holds. -/
def TypeNaming.nestedTypeName (naming : TypeNaming) (property : String) (singularize : Bool) : String :=
  let name := naming.spell property.toList
  .ofList (if singularize then singular name else name)

/-- The name that a record carries in a model: its key in camel case with a capital in front. -/
def typeNameForKey (key : String) : String :=
  .ofList (upperCamelCase (PropertyNaming.verbatim.spell key.toList))

end SwiftModel.Identifier
