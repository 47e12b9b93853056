/- A JSON text as a tree of its lexemes, up to the place where it breaks off.

No text is refused here. A reader goes through the tree in the order of the text and decides at a break
what is wrong, so that readers who want different things of one text still agree on its shape. -/
import SwiftModel.Json.Lexeme

namespace SwiftModel.Json

structure Key where
  content : Except Fault String
  after : List Char

inductive ArrayStop
  | closed (after : List Char)
  /-- The text breaks off inside the last item. -/
  | inside
  | textEnd
  /-- The closing bracket comes behind a comma. -/
  | dangling (closer : Lexeme)
  /-- Something else than a comma or the closing bracket comes behind an item. -/
  | unseparated (found : Lexeme)

inductive ObjectStop
  | closed (after : List Char)
  /-- The text breaks off inside the last member's value. -/
  | inside
  | textEnd (behindComma : Bool)
  /-- The closing brace comes behind a comma. -/
  | dangling (closer : Lexeme)
  /-- Something else than a comma or the closing brace comes behind a member. -/
  | unseparated (found : Lexeme)
  /-- Something else than a string stands where a key should. -/
  | noKey (found : Lexeme)
  /-- Something else than a colon comes behind a key, or nothing at all. -/
  | noColon (key : Key) (found : Option Lexeme)

inductive Tree where
  /-- The text ends where a value should begin. -/
  | missing
  /-- A value of one lexeme, or a lexeme that begins no value. -/
  | leaf (lexeme : Lexeme)
  | array (here : List Char) (items : List Tree) (stop : ArrayStop)
  | object (here : List Char) (members : List (Key × Tree)) (stop : ObjectStop)

/-- A container that waits for a value; what it has already is in reverse. -/
inductive Enclosing where
  | array (here : List Char) (items : List Tree)
  | object (here : List Char) (members : List (Key × Tree)) (key : Key)

/-- What may come next inside a container. -/
inductive Due
  | first
  | separator
  | behindComma
deriving DecidableEq

inductive Place where
  | value
  | inArray (here : List Char) (items : List Tree) (due : Due)
  | inObject (here : List Char) (members : List (Key × Tree)) (due : Due)
  | behindKey (here : List Char) (members : List (Key × Tree)) (key : Key)

/-- Reading is over, or goes on inside containers, the innermost first. -/
inductive Progress where
  | done (tree : Tree)
  | going (place : Place) (enclosing : List Enclosing)

/-- The container that breaks off inside the value it waits for. -/
def Enclosing.brokenBy : Enclosing → Tree → Tree
  | .array here items, tree => .array here (tree :: items).reverse .inside
  | .object here members key, tree => .object here ((key, tree) :: members).reverse .inside

/-- The whole tree, when the text breaks off inside one value of it. -/
def breakOff (tree : Tree) (enclosing : List Enclosing) : Tree :=
  enclosing.foldl (fun tree container => container.brokenBy tree) tree

def deliver (tree : Tree) : List Enclosing → Progress
  | [] => .done tree
  | .array here items :: outer => .going (.inArray here (tree :: items) .separator) outer
  | .object here members key :: outer =>
    .going (.inObject here ((key, tree) :: members) .separator) outer

def begin (lexeme : Lexeme) (enclosing : List Enclosing) : Progress :=
  match lexeme.token with
  | .openArray => .going (.inArray lexeme.here [] .first) enclosing
  | .openObject => .going (.inObject lexeme.here [] .first) enclosing
  | .null | .boolean _ | .number _ | .string _ => deliver (.leaf lexeme) enclosing
  | .closeArray | .closeObject | .comma | .colon | .broken .. =>
    .done (breakOff (.leaf lexeme) enclosing)

def stepArray (here : List Char) (items : List Tree) (due : Due) (lexeme : Lexeme)
    (enclosing : List Enclosing) : Progress :=
  let stopped (stop : ArrayStop) := Tree.array here items.reverse stop
  match due, lexeme.token with
  | .behindComma, .closeArray => .done (breakOff (stopped (.dangling lexeme)) enclosing)
  | _, .closeArray => deliver (stopped (.closed lexeme.after)) enclosing
  | .separator, .comma => .going (.inArray here items .behindComma) enclosing
  | .separator, _ => .done (breakOff (stopped (.unseparated lexeme)) enclosing)
  | _, _ => begin lexeme (.array here items :: enclosing)

def stepObject (here : List Char) (members : List (Key × Tree)) (due : Due) (lexeme : Lexeme)
    (enclosing : List Enclosing) : Progress :=
  let stopped (stop : ObjectStop) := Tree.object here members.reverse stop
  match due, lexeme.token with
  | .behindComma, .closeObject => .done (breakOff (stopped (.dangling lexeme)) enclosing)
  | _, .closeObject => deliver (stopped (.closed lexeme.after)) enclosing
  | .separator, .comma => .going (.inObject here members .behindComma) enclosing
  | .separator, _ => .done (breakOff (stopped (.unseparated lexeme)) enclosing)
  | _, .string content => .going (.behindKey here members ⟨content, lexeme.after⟩) enclosing
  | _, _ => .done (breakOff (stopped (.noKey lexeme)) enclosing)

def step (place : Place) (enclosing : List Enclosing) (lexeme : Lexeme) : Progress :=
  match place with
  | .value => begin lexeme enclosing
  | .inArray here items due => stepArray here items due lexeme enclosing
  | .inObject here members due => stepObject here members due lexeme enclosing
  | .behindKey here members key =>
    match lexeme.token with
    | .colon => .going .value (.object here members key :: enclosing)
    | _ =>
      .done (breakOff (.object here members.reverse (.noColon key (some lexeme))) enclosing)

def finish (place : Place) (enclosing : List Enclosing) : Tree :=
  match place with
  | .value => breakOff .missing enclosing
  | .inArray here items .behindComma => breakOff .missing (.array here items :: enclosing)
  | .inArray here items _ => breakOff (.array here items.reverse .textEnd) enclosing
  | .inObject here members due =>
    breakOff (.object here members.reverse (.textEnd (due == .behindComma))) enclosing
  | .behindKey here members key =>
    breakOff (.object here members.reverse (.noColon key none)) enclosing

def run (place : Place) (enclosing : List Enclosing) : List Lexeme → Tree
  | [] => finish place enclosing
  | lexeme :: rest =>
    match step place enclosing lexeme with
    | .done tree => tree
    | .going place enclosing => run place enclosing rest

/-- The first value of a text, as a tree. -/
def Tree.ofText (text : List Char) : Tree := run .value [] (lexemes text)

/-- The place behind the first byte of a value. -/
def Tree.beginning : Tree → Site
  | .missing => .end
  | .leaf lexeme => .at lexeme.here
  | .array here _ _ | .object here _ _ => .at here

/-- The text behind a value; none behind one that breaks off. -/
def Tree.after : Tree → List Char
  | .missing => []
  | .leaf lexeme => lexeme.after
  | .array _ _ (.closed after) => after
  | .object _ _ (.closed after) => after
  | .array .. | .object .. => []

end SwiftModel.Json
