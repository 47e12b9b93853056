/- Reading values of known types from a JSON text, with the path and place of the first problem. -/
import SwiftModel.Config.Problem
import SwiftModel.Json.Passing

namespace SwiftModel.Config
open SwiftModel.Json

abbrev Reader (α : Type) := Tree → Except Rejection α

def Rejection.here (problem : Problem) (site : Site) : Rejection := ⟨[], problem, some site⟩

def Rejection.ofFault (fault : Fault) : Rejection := .here (.text fault.cause) fault.site

/-- A problem of a part is a problem of the whole, one step further away. -/
def within {α : Type} (segment : Segment) (result : Except Rejection α) : Except Rejection α :=
  result.mapError fun r => { r with path := segment :: r.path }

/-- A problem without a place gets the one where its container is given up. -/
def settled {α : Type} (site : Site) (result : Except Rejection α) : Except Rejection α :=
  result.mapError fun r => { r with site := some (r.site.getD site) }

/-- A lexeme where something else is wanted. A value of one lexeme is read through; of an array or
object nothing is read. -/
def unwantedLexeme (wanted : Wanted) (lexeme : Lexeme) : Rejection :=
  let mismatch (found : Found) : Rejection :=
    .here (.wrongType found wanted) (.before lexeme.after)
  match lexeme.token with
  | .null => mismatch .null
  | .boolean value => mismatch (.boolean value)
  | .number (.ok value) => mismatch (.number value)
  | .string (.ok value) => mismatch (.string value)
  | .number (.error fault) | .string (.error fault) | .broken fault _ => .ofFault fault
  | .openArray => .here (.wrongType .array wanted) (.before lexeme.here)
  | .openObject => .here (.wrongType .object wanted) (.before lexeme.here)
  | .closeArray | .closeObject | .comma | .colon => .ofFault ⟨.expectedValue, .at lexeme.here⟩

def unwanted (wanted : Wanted) : Tree → Rejection
  | .missing => .ofFault ⟨.endInValue, .end⟩
  | .leaf lexeme => unwantedLexeme wanted lexeme
  | .array here _ _ => .here (.wrongType .array wanted) (.before here)
  | .object here _ _ => .here (.wrongType .object wanted) (.before here)

def readBoolean : Reader Bool
  | .leaf ⟨.boolean value, _, _⟩ => .ok value
  | tree => .error (unwanted .boolean tree)

def readString : Reader String
  | .leaf ⟨.string (.ok value), _, _⟩ => .ok value
  | tree => .error (unwanted .string tree)

def readWidth : Reader Nat
  | .leaf ⟨.number (.ok (.integer value)), _, after⟩ =>
    if 0 ≤ value then .ok value.toNat
    else .error (.here (.negativeWidth value) (.before after))
  | tree => .error (unwanted .width tree)

def readNothing : Reader Unit
  | .leaf ⟨.null, _, _⟩ => .ok ()
  | tree => .error (unwanted .nothing tree)

def faultless {α : Type} (fault : Option Fault) (result : α) : Except Rejection α :=
  match fault with
  | some fault => .error (.ofFault fault)
  | none => .ok result

/-- The items of a list, from the one with this index on. -/
def readItems {α : Type} (read : Reader α) (index : Nat) : List Tree → Except Rejection (List α)
  | [] => .ok []
  | .missing :: _ => .error (unwanted .nothing .missing)
  | item :: items => do
    let value ← within (.index index) (read item)
    return value :: (← readItems read (index + 1) items)

def readList {α : Type} (read : Reader α) : Reader (List α)
  | .array _ items stop => do faultless stop.fault? (← readItems read 0 items)
  | tree => .error (unwanted .list tree)

/-- A choice that stands for a value, or one that comes with a value to be read. -/
inductive Choice (α : Type) where
  | bare (value : α)
  | carrying (read : Reader α)

/-- Reads the value that comes with a choice; a choice that stands for a value comes with null. -/
def Choice.read {α : Type} : Choice α → Reader α
  | .bare value, tree => (readNothing tree).map fun _ => value
  | .carrying read, tree => read tree

def findChoice {α : Type} (choices : List (String × Choice α)) (name : String)
    (after : List Char) : Except Rejection (Choice α) :=
  match choices.lookup name with
  | some choice => .ok choice
  | none => .error (.here (.unknownChoice name (choices.map Prod.fst)) (.before after))

/-- The end of an object that holds a choice and its value and nothing else. -/
def closeChoice {α : Type} (value : α) (after : List Char) : Except Rejection α :=
  match skipBlank after with
  | [] => .error (.ofFault ⟨.endInObject, .end⟩)
  | '}' :: _ => .ok value
  | rest => .error (.ofFault ⟨.expectedValue, .before rest⟩)

def emptyChoice {α : Type} (choices : List (String × Choice α)) : ObjectStop → Rejection
  | .closed after => .ofFault ⟨.expectedValue, .before after⟩
  | .noKey found => .ofFault (keyFault found)
  | .noColon key found =>
    match key.content with
    | .error fault => .ofFault fault
    | .ok name =>
      match findChoice choices name key.after with
      | .error rejection => rejection
      | .ok _ => .ofFault (colonFault found)
  | _ => .ofFault ⟨.endInObject, .end⟩

/-- Reads one of several choices: its name, or an object with its name and its value. -/
def readChoice {α : Type} (choices : List (String × Choice α)) : Reader α
  | .leaf ⟨.string (.ok name), _, after⟩ => do
    match ← findChoice choices name after with
    | .bare value => return value
    | .carrying _ => throw ⟨[.member name], .wrongType .bareChoice .choiceWithValue, none⟩
  | .leaf lexeme =>
    match lexeme.token, lexeme.here with
    | .string (.error fault), _ | .broken fault _, '"' :: _ => .error (.ofFault fault)
    | _, here => .error (.ofFault ⟨.expectedValue, .at here⟩)
  | .object _ ((key, tree) :: _) _ => do
    let name ← key.content.mapError Rejection.ofFault
    let choice ← findChoice choices name key.after
    let value ← within (.member name) (choice.read tree)
    closeChoice value tree.after
  | .object _ [] stop => .error (emptyChoice choices stop)
  | .array here _ _ => .error (.ofFault ⟨.expectedValue, .at here⟩)
  | .missing => .error (.ofFault ⟨.endInValue, .end⟩)

/-- A member of a section: its name, and how what is read of it changes the section. -/
structure Member (σ : Type) where
  name : String
  read : σ → Reader σ

/-- A member of a section that sets one value. -/
def Member.setting {σ α : Type} (name : String) (read : Reader α) (set : σ → α → σ) : Member σ :=
  ⟨name, fun values tree => (read tree).map (set values)⟩

/-- A member that is a section inside the section. -/
def Member.nested {σ τ : Type} (name : String) (read : τ → Reader τ) (get : σ → τ)
    (set : σ → τ → σ) : Member σ :=
  ⟨name, fun values tree => (read (get values) tree).map (set values)⟩

/-- The place where an object is given up in front of a text: behind its brace, if that is next. -/
def objectGivenUp (text : List Char) : Site :=
  match skipBlank text with
  | '}' :: rest => .before rest
  | rest => .before rest

/-- The place where an array is given up in front of a text: behind its bracket or a comma, if
that is next. -/
def arrayGivenUp (text : List Char) : Site :=
  match skipBlank text with
  | ']' :: rest => .before rest
  | ',' :: rest => .before (skipBlank rest)
  | rest => .before rest

/-- A member that is there a second time, seen when its key is read. -/
def checkDuplicate {σ : Type} (members : List (Member σ)) (seen : List String) (name : String)
    (after : List Char) : Except Rejection (Option (Member σ)) :=
  match members.find? (·.name == name) with
  | none => .ok none
  | some member =>
    if seen.contains name then .error ⟨[], .duplicateMember name, some (objectGivenUp after)⟩
    else .ok (some member)

/-- What is wrong with a section where its object stops. -/
def sectionStop {σ : Type} (members : List (Member σ)) (seen : List String) (values : σ) :
    ObjectStop → Except Rejection σ
  | .noColon key found => do
    let name ← within .unnamed (key.content.mapError Rejection.ofFault)
    let _ ← checkDuplicate members seen name key.after
    throw (.ofFault (colonFault found))
  | stop => within .unnamed (faultless stop.fault? values)

/-- Reads the members of a section from an object; a member that no section has is passed over. -/
def readMembers {σ : Type} (members : List (Member σ)) (stop : ObjectStop) (seen : List String)
    (values : σ) : List (Key × Tree) → Except Rejection σ
  | [] => sectionStop members seen values stop
  | (key, tree) :: rest => do
    let name ← within .unnamed (key.content.mapError Rejection.ofFault)
    match ← checkDuplicate members seen name key.after with
    | none =>
      let values ← within (.member name) (faultless tree.passingFault? values)
      readMembers members stop seen values rest
    | some member =>
      let values ←
        settled (objectGivenUp tree.after) (within (.member name) (member.read values tree))
      readMembers members stop (name :: seen) values rest

/-- What is wrong with a section where its array stops; all its members are read. -/
def fullArrayFault? : ArrayStop → Option Fault
  | .unseparated found => some ⟨.trailingCharacters, .at found.here⟩
  | stop => stop.fault?

/-- Reads the members of a section from an array, in their order; those that are missing keep
their values. -/
def readPositions {σ : Type} (stop : ArrayStop) (index : Nat) (values : σ) :
    List (Member σ) → List Tree → Except Rejection σ
  | [], [] => faultless (fullArrayFault? stop) values
  | [], surplus :: _ => .error (.ofFault ⟨.trailingCharacters, surplus.beginning⟩)
  | _, [] => faultless stop.fault? values
  | _, .missing :: _ => .error (unwanted .nothing .missing)
  | member :: members, item :: items => do
    let values ← settled (arrayGivenUp item.after) (within (.index index) (member.read values item))
    readPositions stop (index + 1) values members items

/-- Reads a section: an object of its members, or an array of them. -/
def readSection {σ : Type} (name : String) (members : List (Member σ)) (values : σ) : Reader σ
  | .object _ written stop => readMembers members stop [] values written
  | .array _ items stop => readPositions stop 0 values members items
  | tree => .error (unwanted (.section name) tree)

end SwiftModel.Config
