/- What can be wrong with a configuration, and where. -/
import SwiftModel.Json.Document
import SwiftModel.Number.Decimal
import SwiftModel.Text.Shown

namespace SwiftModel.Config

inductive Found
  | null
  | boolean (value : Bool)
  | number (value : Number)
  | string (value : String)
  | array
  | object
  /-- The bare name of a choice that has a value with it. -/
  | bareChoice
deriving DecidableEq

def Found.name : Found → String
  | .null => "null"
  | .boolean value => "boolean \x60" ++ (if value then "true" else "false") ++ "\x60"
  | .number (.integer value) => "integer \x60" ++ toString value ++ "\x60"
  | .number (.double value) => "floating point \x60" ++ value.text ++ "\x60"
  | .string value => "string " ++ Text.shown value
  | .array => "sequence"
  | .object => "map"
  | .bareChoice => "unit variant"

inductive Wanted
  | boolean
  | string
  | width
  | nothing
  | list
  | choiceWithValue
  | section (name : String)
deriving DecidableEq

def Wanted.name : Wanted → String
  | .boolean => "a boolean"
  | .string => "a string"
  | .width => "usize"
  | .nothing => "unit"
  | .list => "a sequence"
  | .choiceWithValue => "newtype variant"
  | .section name => "struct " ++ name

inductive Problem
  | text (cause : Json.Cause)
  | wrongType (found : Found) (wanted : Wanted)
  | negativeWidth (value : Int)
  | unknownChoice (name : String) (known : List String)
  | duplicateMember (name : String)
deriving DecidableEq

def quoted (name : String) : String := "\x60" ++ name ++ "\x60"

def knownNames : List String → String
  | [first, second] => quoted first ++ " or " ++ quoted second
  | names => "one of " ++ ", ".intercalate (names.map quoted)

def Problem.message : Problem → String
  | .text cause => cause.message
  | .wrongType found wanted => "invalid type: " ++ found.name ++ ", expected " ++ wanted.name
  | .negativeWidth value =>
    "invalid value: integer " ++ quoted (toString value) ++ ", expected " ++ Wanted.width.name
  | .unknownChoice name known =>
    "unknown variant " ++ quoted name ++ ", expected " ++ knownNames known
  | .duplicateMember name => "duplicate field " ++ quoted name

/-- A step from a value to a part of it. -/
inductive Segment
  | member (name : String)
  | index (n : Nat)
  /-- A member whose name is not read yet. -/
  | unnamed
deriving DecidableEq

/-- The text of a path, of which `first` tells whether it stands at the front. -/
def segmentsText (first : Bool) : List Segment → String
  | [] => ""
  | .index n :: rest => "[" ++ toString n ++ "]" ++ segmentsText false rest
  | .member name :: rest => (if first then "" else ".") ++ name ++ segmentsText false rest
  | .unnamed :: rest => (if first then "" else ".") ++ "?" ++ segmentsText false rest

def pathText : List Segment → String
  | [] => "."
  | path => segmentsText true path

/-- A problem with its path and, once it is known, its place. -/
structure Rejection where
  path : List Segment
  problem : Problem
  site : Option Json.Site
deriving DecidableEq

structure Malformed where
  path : List Segment
  problem : Problem
  position : Json.Position
deriving DecidableEq

def Malformed.message (malformed : Malformed) : String :=
  "invalid configuration: at JSON path " ++ pathText malformed.path ++ " → "
    ++ malformed.problem.message ++ malformed.position.message

end SwiftModel.Config
