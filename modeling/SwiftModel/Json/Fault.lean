/- What can be wrong with a JSON text, and where. -/

namespace SwiftModel.Json

inductive Cause
  | endInValue
  | endInArray
  | endInObject
  | endInString
  | expectedValue
  | expectedWord
  | keyNotString
  | expectedColon
  | expectedCommaOrBracket
  | expectedCommaOrBrace
  | trailingComma
  | trailingCharacters
  | invalidNumber
  | numberOutOfRange
  | invalidEscape
  | brokenSurrogatePair
  | loneSurrogate
  | controlCharacter
  | tooDeep
deriving DecidableEq

def Cause.message : Cause → String
  | .endInValue => "EOF while parsing a value"
  | .endInArray => "EOF while parsing a list"
  | .endInObject => "EOF while parsing an object"
  | .endInString => "EOF while parsing a string"
  | .expectedValue => "expected value"
  | .expectedWord => "expected ident"
  | .keyNotString => "key must be a string"
  | .expectedColon => "expected \x60:\x60"
  | .expectedCommaOrBracket => "expected \x60,\x60 or \x60]\x60"
  | .expectedCommaOrBrace => "expected \x60,\x60 or \x60\x7d\x60"
  | .trailingComma => "trailing comma"
  | .trailingCharacters => "trailing characters"
  | .invalidNumber => "invalid number"
  | .numberOutOfRange => "number out of range"
  | .invalidEscape => "invalid escape"
  | .brokenSurrogatePair => "unexpected end of hex escape"
  | .loneSurrogate => "lone leading surrogate in hex escape"
  | .controlCharacter => "control character (\\u0000-\\u001F) found while parsing a string"
  | .tooDeep => "recursion limit exceeded"

/-- A place in a text: what is still unread there, and how many of its bytes count as read. -/
structure Site where
  unread : List Char
  bytes : Nat
deriving DecidableEq

def Site.before (unread : List Char) : Site := ⟨unread, 0⟩

/-- The place behind the first byte of a text that is still unread. -/
def Site.at (unread : List Char) : Site := ⟨unread, 1⟩

def Site.end : Site := ⟨[], 0⟩

structure Fault where
  cause : Cause
  site : Site
deriving DecidableEq

/-- A line, counted from one, and how many bytes of it are read. -/
structure Position where
  line : Nat
  column : Nat
deriving DecidableEq

/-- The length of a text in UTF-8. -/
def byteCount : List Char → Nat
  | [] => 0
  | c :: cs => c.utf8Size + byteCount cs

/-- The position after so many more bytes of a text. -/
def Position.advance (position : Position) : Nat → List Char → Position
  | _, [] => position
  | bytes, c :: cs =>
    if bytes = 0 then position
    else if c = '\n' then advance ⟨position.line + 1, 0⟩ (bytes - 1) cs
    else
      advance ⟨position.line, position.column + min bytes c.utf8Size⟩ (bytes - c.utf8Size) cs

def Site.position (site : Site) (text : List Char) : Position :=
  Position.advance ⟨1, 0⟩ (byteCount text - byteCount site.unread + site.bytes) text

def Position.message (position : Position) : String :=
  " at line " ++ toString position.line ++ " column " ++ toString position.column

end SwiftModel.Json
