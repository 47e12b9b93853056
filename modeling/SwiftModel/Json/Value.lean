/- JSON values: what a document says, apart from how it is written. -/
import SwiftModel.Number.Binary64

namespace SwiftModel

/-- A number that is written as a whole number and fits 64 bits, or any other. -/
inductive Number
  | integer (value : Int)
  | double (value : Binary64)
deriving DecidableEq

/-- A JSON value; an object has its members in the order of their first occurrence. -/
inductive Json where
  | null
  | boolean (value : Bool)
  | number (value : Number)
  | string (value : String)
  | array (items : List Json)
  | object (members : List (String × Json))

namespace Json

inductive Kind
  | null
  | boolean
  | number
  | string
  | array
  | object
deriving DecidableEq

def Kind.name : Kind → String
  | .null => "null"
  | .boolean => "boolean"
  | .number => "number"
  | .string => "string"
  | .array => "array"
  | .object => "object"

def kind : Json → Kind
  | .null => .null
  | .boolean _ => .boolean
  | .number _ => .number
  | .string _ => .string
  | .array _ => .array
  | .object _ => .object

/-- The members with one more: a key that is there keeps its place and takes the new value. -/
def insert (key : String) (value : Json) : List (String × Json) → List (String × Json)
  | [] => [(key, value)]
  | (k, v) :: members =>
    if k = key then (key, value) :: members else (k, v) :: insert key value members

def ofMembers (members : List (String × Json)) : Json :=
  .object (members.foldl (fun done (key, value) => insert key value done) [])

def member? (key : String) : Json → Option Json
  | .object members => members.lookup key
  | _ => none

def string? : Json → Option String
  | .string s => some s
  | _ => none

def isObject : Json → Bool
  | .object _ => true
  | _ => false

end Json

def Number.isNonnegative : Number → Bool
  | .integer n => decide (0 ≤ n)
  | .double x => x.isNonnegative

end SwiftModel
