/- JSON pointers: paths into a document. -/
import SwiftModel.Json.Value
import SwiftModel.Text.Pieces

namespace SwiftModel.Json

/-- A part of a pointer as it is written: a tilde and a slash have escapes. -/
def escapePart : List Char → List Char
  | [] => []
  | '~' :: cs => '~' :: '0' :: escapePart cs
  | '/' :: cs => '~' :: '1' :: escapePart cs
  | c :: cs => c :: escapePart cs

/-- The part that is written so; a tilde without a digit it knows stands for itself. -/
def unescapePart : List Char → List Char
  | [] => []
  | '~' :: '0' :: cs => '~' :: unescapePart cs
  | '~' :: '1' :: cs => '/' :: unescapePart cs
  | c :: cs => c :: unescapePart cs

/-- The text of a pointer: each part behind a slash. -/
def pointerText (parts : List String) : String :=
  String.join (parts.map fun part => "/" ++ .ofList (escapePart part.toList))

/-- The parts of a pointer; a text that is not empty must begin with a slash. -/
def pointerParts? (text : String) : Option (List String) :=
  match text.toList with
  | [] => some []
  | '/' :: cs => some ((Text.pieces '/' cs).map fun part => .ofList (unescapePart part))
  | _ => none

/-- The index that a part gives: digits without a zero in front, save zero itself. -/
def arrayIndex? (part : String) : Option Nat :=
  match part.toList with
  | [] => none
  | '0' :: _ :: _ => none
  | cs =>
    if cs.all Char.isDigit then
      some (cs.foldl (fun n c => n * 10 + (c.toNat - '0'.toNat)) 0)
    else none

def child? (part : String) : Json → Option Json
  | .object members => members.lookup part
  | .array items => do items[← arrayIndex? part]?
  | _ => none

/-- The value that parts select one after the other. -/
def at? (value : Json) : List String → Option Json
  | [] => some value
  | part :: parts => do (← value.child? part).at? parts

def pointer? (value : Json) (pointer : String) : Option Json := do
  value.at? (← pointerParts? pointer)

end SwiftModel.Json
