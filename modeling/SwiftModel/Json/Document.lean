/- Reading a JSON document: one value, and nothing behind it. -/
import SwiftModel.Json.Tree

namespace SwiftModel.Json

def ArrayStop.fault? : ArrayStop → Option Fault
  | .closed _ | .inside => none
  | .textEnd => some ⟨.endInArray, .end⟩
  | .dangling closer => some ⟨.trailingComma, .at closer.here⟩
  | .unseparated found => some ⟨.expectedCommaOrBracket, .at found.here⟩

def keyFault (found : Lexeme) : Fault :=
  match found.token, found.here with
  | .broken fault _, '"' :: _ => fault
  | _, here => ⟨.keyNotString, .at here⟩

def colonFault : Option Lexeme → Fault
  | some found => ⟨.expectedColon, .at found.here⟩
  | none => ⟨.endInObject, .end⟩

def ObjectStop.fault? : ObjectStop → Option Fault
  | .closed _ | .inside => none
  | .textEnd behindComma => some ⟨if behindComma then .endInValue else .endInObject, .end⟩
  | .dangling closer => some ⟨.trailingComma, .at closer.here⟩
  | .unseparated found => some ⟨.expectedCommaOrBrace, .at found.here⟩
  | .noKey found => some (keyFault found)
  | .noColon key found =>
    match key.content with
    | .error fault => some fault
    | .ok _ => some (colonFault found)

def Lexeme.value (lexeme : Lexeme) : Except Fault Json :=
  match lexeme.token with
  | .null => .ok .null
  | .boolean b => .ok (.boolean b)
  | .number value => value.map .number
  | .string content => content.map .string
  | .broken fault _ => .error fault
  | _ => .error ⟨.expectedValue, .at lexeme.here⟩

/-- A result, unless there is a fault. -/
def unlessFault {α : Type} (fault : Option Fault) (result : α) : Except Fault α :=
  match fault with
  | some fault => .error fault
  | none => .ok result

mutual

/-- The value of a tree with at most `depth` containers in each other, or the first fault in it. -/
def Tree.value (depth : Nat) : Tree → Except Fault Json
  | .missing => .error ⟨.endInValue, .end⟩
  | .leaf lexeme => lexeme.value
  | .array here items stop =>
    match depth with
    | 0 => .error ⟨.tooDeep, .at here⟩
    | depth + 1 => do unlessFault stop.fault? (.array (← itemValues depth items))
  | .object here members stop =>
    match depth with
    | 0 => .error ⟨.tooDeep, .at here⟩
    | depth + 1 => do unlessFault stop.fault? (.ofMembers (← memberValues depth members))
termination_by structural tree => tree

def itemValues (depth : Nat) : List Tree → Except Fault (List Json)
  | [] => .ok []
  | item :: items => return (← item.value depth) :: (← itemValues depth items)
termination_by structural items => items

def memberValues (depth : Nat) : List (Key × Tree) → Except Fault (List (String × Json))
  | [] => .ok []
  | (key, tree) :: members => do
    let name ← key.content
    return (name, ← tree.value depth) :: (← memberValues depth members)
termination_by structural members => members

end

def maximalDepth : Nat := 127

/-- The value of a document; only blanks may follow it. -/
def read (text : List Char) : Except Fault Json := do
  let tree := Tree.ofText text
  let value ← tree.value maximalDepth
  match skipBlank tree.after with
  | [] => return value
  | rest => throw ⟨.trailingCharacters, .at rest⟩

structure Malformed where
  cause : Cause
  position : Position
deriving DecidableEq

def Fault.inText (fault : Fault) (text : List Char) : Malformed :=
  ⟨fault.cause, fault.site.position text⟩

def Malformed.message (malformed : Malformed) : String :=
  "malformed JSON: " ++ malformed.cause.message ++ malformed.position.message

def ofText (text : String) : Except Malformed Json :=
  (read text.toList).mapError (·.inText text.toList)

end SwiftModel.Json
