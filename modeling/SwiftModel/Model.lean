/- What a document is modelled by: records of typed fields, and enumerations of texts. -/

namespace SwiftModel

/-- A field: the key it has in the document, and its type, an array or not, optional or not. -/
structure Field (β : Type) where
  key : String
  base : β
  isArray : Bool
  isOptional : Bool
deriving DecidableEq

/-- A named list of fields, in the order of the document. -/
structure Record (β : Type) where
  name : String
  fields : List (Field β)
deriving DecidableEq, Inhabited

/-- What a type is once arrays and options are taken off. -/
inductive Base where
  | integer
  | double
  | boolean
  | string
  | null
  | uuid
  /-- A type of the target language, written as it is. -/
  | named (name : String)
  | record (record : Record Base)
  /-- A text out of a list. -/
  | choice (values : List String)
deriving Inhabited

structure FieldType where
  base : Base
  isArray : Bool
  isOptional : Bool

structure Enumeration where
  name : String
  values : List String
deriving DecidableEq

inductive Model where
  | record (record : Record Base)
  | enumeration (enumeration : Enumeration)

/-- The name of a root until it is declared under another. -/
def defaultRootName : String := "Model"

/-- A base that is declared beside the field that holds it. -/
def Base.isNested : Base → Bool
  | .record _ | .choice _ => true
  | _ => false

def FieldType.plain (base : Base) : FieldType := ⟨base, false, false⟩

def FieldType.arrayOf (base : Base) : FieldType := ⟨base, true, false⟩

def FieldType.field (type : FieldType) (key : String) : Field Base :=
  ⟨key, type.base, type.isArray, type.isOptional⟩

def Field.type (field : Field Base) : FieldType :=
  ⟨field.base, field.isArray, field.isOptional⟩

def Record.field? {β : Type} (record : Record β) (key : String) : Option (Field β) :=
  record.fields.find? (·.key == key)

def Record.nested (record : Record Base) : List (Record Base) :=
  record.fields.filterMap fun field =>
    match field.base with
    | .record inner => some inner
    | _ => none

/-- An enumeration has each value once, where it first occurs. -/
def Enumeration.ofList (name : String) (values : List String) : Enumeration :=
  ⟨name, values.eraseDups⟩

def Model.name : Model → String
  | .record r => r.name
  | .enumeration e => e.name

end SwiftModel
