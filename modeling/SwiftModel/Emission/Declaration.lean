/- The declarations of a model: every name chosen, every type written out. -/
import SwiftModel.Emission.Options
import SwiftModel.Identifier.Distinct

namespace SwiftModel.Emission
open SwiftModel.Identifier

/-- A case of an enumeration, or a row of a key table: a name, and the text of the document it
stands for. -/
structure Case where
  name : String
  raw : String
deriving DecidableEq

/-- A property: its name, its type as it is written, and the declaration that the type needs. -/
structure Property (δ : Type) where
  name : String
  type : String
  nested : Option δ

inductive Declaration where
  | record (name : String) (properties : List (Property Declaration)) (keyTable : Option (List Case))
  | enumeration (name : String) (cases : List Case)

/-- Two declarations side by side in `parent` would both be called `name`. -/
structure Clash where
  parent : String
  name : String
deriving DecidableEq

def Clash.message (clash : Clash) : String :=
  "duplicate nested type name \x60" ++ clash.name ++ "\x60 inside \x60" ++ clash.parent ++ "\x60"

/-- The name of the key table, which is declared beside the nested types. -/
def keyTableName : String := "CodingKeys"

/-- The name of a type that needs no declaration. -/
def scalarName? : Base → Option String
  | .integer => some "Int"
  | .double => some "Double"
  | .boolean => some "Bool"
  | .string => some "String"
  | .null => some "NSNull"
  | .uuid => some "UUID"
  | .named name => some name
  | .record _ | .choice _ => none

def writtenType (isArray isOptional : Bool) (name : String) : String :=
  (if isArray then "[" ++ name ++ "]" else name) ++ (if isOptional then "?" else "")

def Options.declaredName (options : Options) (property : String) (isArray : Bool) : String :=
  options.escaper.avoidReserved
    (options.typeNaming.nestedTypeName property (isArray && options.singularElements))

def Options.identifiers (options : Options) (keys : List String) : List String :=
  distinct (keys.map options.propertyNaming.identifier)

def Options.cases (options : Options) (keys : List String) : List Case :=
  List.zipWith Case.mk (options.identifiers keys) keys

/-- The key table of a record: there is one if a property is named otherwise than its key, or if
it is asked for. -/
def Options.keyTable? (options : Options) (keys : List String) : Option (List Case) :=
  let cases := options.cases keys
  if (options.alwaysKeyTable || cases.any fun c => c.name != c.raw) && !keys.isEmpty then
    some cases
  else none

/-- The names that are taken in a record before its fields are declared. -/
def takenNames (keyTable : Option (List Case)) : List String :=
  if keyTable.isSome then [keyTableName] else []

def declareChoice (options : Options) (name : String) (values : List String) : Declaration :=
  .enumeration name (options.cases values)

def Options.baseName (options : Options) (property : String) (isArray : Bool) (base : Base) : String :=
  (scalarName? base).getD (options.declaredName property isArray)

mutual

def declareBase (options : Options) (name : String) : Base → Except Clash (Option Declaration)
  | .record inner => some <$> declareRecord options name inner
  | .choice values => return some (declareChoice options name values)
  | _ => return none
termination_by structural base => base

def declareRecord (options : Options) (name : String) : Record Base → Except Clash Declaration
  | ⟨_, fields⟩ => do
    let keys := fields.map Field.key
    let keyTable := options.keyTable? keys
    let properties ←
      declareFields options name (takenNames keyTable) fields (options.identifiers keys)
    return .record name properties keyTable
termination_by structural record => record

/-- Declares fields under their identifiers; `taken` are the names that no nested type may have.
What a field holds is declared before the fields behind it. -/
def declareFields (options : Options) (parent : String) (taken : List String) :
    List (Field Base) → List String → Except Clash (List (Property Declaration))
  | [], _ | _, [] => return []
  | ⟨_, base, isArray, isOptional⟩ :: fields, property :: properties => do
    let name := options.baseName property isArray base
    if base.isNested && taken.contains name then throw ⟨parent, name⟩
    let nested ← declareBase options name base
    let rest ←
      declareFields options parent (if base.isNested then name :: taken else taken) fields properties
    return ⟨property, writtenType isArray isOptional name, nested⟩ :: rest
termination_by structural fields => fields

end

/-- Fields in the order of their keys; fields of one key stay in the order they have. -/
def sortByKey (fields : List (Field Base)) : List (Field Base) :=
  fields.mergeSort fun a b => decide (a.key ≤ b.key)

mutual

/-- A base with the fields of every record in it in the order of their keys. -/
def sortBase : Base → Base
  | .record inner => .record (sortRecord inner)
  | base => base
termination_by structural base => base

def sortRecord : Record Base → Record Base
  | ⟨name, fields⟩ => ⟨name, sortByKey (sortFieldBases fields)⟩
termination_by structural record => record

def sortFieldBases : List (Field Base) → List (Field Base)
  | [] => []
  | ⟨key, base, isArray, isOptional⟩ :: fields =>
    ⟨key, sortBase base, isArray, isOptional⟩ :: sortFieldBases fields
termination_by structural fields => fields

end

def declare (options : Options) : Model → Except Clash Declaration
  | .record r =>
    declareRecord options options.rootName (if options.sortedFields then sortRecord r else r)
  | .enumeration e => return declareChoice options options.rootName e.values

end SwiftModel.Emission
