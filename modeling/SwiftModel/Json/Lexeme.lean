/- The lexemes of a JSON text. -/
import SwiftModel.Json.Numeral
import SwiftModel.Json.Quoted

namespace SwiftModel.Json

/-- What a lexeme is. A number may be out of range and a string may break a pair of surrogates:
that is a fault for a reader of their values, and none for a reader who passes over them. -/
inductive Token
  | openArray
  | closeArray
  | openObject
  | closeObject
  | comma
  | colon
  | null
  | boolean (value : Bool)
  | number (value : Except Fault Number)
  | string (content : Except Fault String)
  /-- No lexeme: what is wrong for a reader of values, and for a reader who passes over them. -/
  | broken (fault passing : Fault)

/-- A token, the text from its first character on, and the text behind it. -/
structure Lexeme where
  token : Token
  here : List Char
  after : List Char

def isBlank (c : Char) : Bool := c == ' ' || c == '\t' || c == '\n' || c == '\r'

def skipBlank (text : List Char) : List Char := text.dropWhile isBlank

def scanWord : List Char → List Char → Except Fault (List Char)
  | [], text => .ok text
  | _ :: _, [] => .error ⟨.endInValue, .end⟩
  | e :: es, c :: cs => if c = e then scanWord es cs else .error ⟨.expectedWord, .at (c :: cs)⟩

/-- The lexeme of a word whose first letter is read. -/
def wordLexeme (token : Token) (rest : List Char) (here after : List Char) : Lexeme :=
  match scanWord rest after with
  | .ok after => ⟨token, here, after⟩
  | .error fault => ⟨.broken fault fault, here, []⟩

/-- The faults of a number that lacks a digit, or has one too many, in front of a text. -/
def brokenNumber : List Char → Token
  | [] => .broken ⟨.endInValue, .end⟩ ⟨.invalidNumber, .end⟩
  | text => .broken ⟨.invalidNumber, .at text⟩ ⟨.invalidNumber, .at text⟩

def numberLexeme (here : List Char) : Lexeme :=
  match scanNumeral here with
  | .error rest => ⟨brokenNumber rest, here, []⟩
  | .ok (numeral, after) =>
    let value :=
      match numeral.value (here.length - after.length) with
      | .ok value => .ok value
      | .error read => .error ⟨.numberOutOfRange, ⟨here, read⟩⟩
    ⟨.number value, here, after⟩

def stringLexeme (here after : List Char) : Lexeme :=
  let scanned := scanString after
  match scanned.2 with
  | .closed after => ⟨.string (decodeString scanned), here, after⟩
  | stop =>
    let passing := stop.skippedFault?.getD ⟨.endInString, .end⟩
    match decodeString scanned with
    | .ok _ => ⟨.broken passing passing, here, []⟩
    | .error fault => ⟨.broken fault passing, here, []⟩

/-- The lexeme at the front of a text; no blank stands there. -/
def lexemeAt (c : Char) (cs : List Char) : Lexeme :=
  let here := c :: cs
  match c with
  | '[' => ⟨.openArray, here, cs⟩
  | ']' => ⟨.closeArray, here, cs⟩
  | '{' => ⟨.openObject, here, cs⟩
  | '}' => ⟨.closeObject, here, cs⟩
  | ',' => ⟨.comma, here, cs⟩
  | ':' => ⟨.colon, here, cs⟩
  | 'n' => wordLexeme .null ['u', 'l', 'l'] here cs
  | 't' => wordLexeme (.boolean true) ['r', 'u', 'e'] here cs
  | 'f' => wordLexeme (.boolean false) ['a', 'l', 's', 'e'] here cs
  | '"' => stringLexeme here cs
  | c =>
    if c = '-' ∨ c.isDigit then numberLexeme here
    else ⟨.broken ⟨.expectedValue, .at here⟩ ⟨.expectedValue, .at here⟩, here, []⟩

theorem scanWord_length {word text after : List Char} (h : scanWord word text = .ok after) :
    after.length ≤ text.length := by
  fun_induction scanWord word text <;> grind

theorem wordLexeme_length (token : Token) (rest here after : List Char) :
    (wordLexeme token rest here after).after.length ≤ after.length := by
  unfold wordLexeme
  split
  next _ h => exact scanWord_length h
  next => exact Nat.zero_le _

theorem numberLexeme_length (c : Char) (cs : List Char) :
    (numberLexeme (c :: cs)).after.length ≤ cs.length := by
  unfold numberLexeme
  split
  next => exact Nat.zero_le _
  next numeral after h =>
    exact Nat.le_of_lt_succ (scanNumeral_length h)

theorem stringLexeme_length (here after : List Char) :
    (stringLexeme here after).after.length ≤ after.length := by
  unfold stringLexeme
  dsimp only
  split
  next _ h => exact Nat.le_of_lt (scanString_closed_length h)
  next => split <;> exact Nat.zero_le _

/-- A lexeme takes up its first character at least. -/
theorem lexemeAt_length (c : Char) (cs : List Char) :
    (lexemeAt c cs).after.length ≤ cs.length := by
  unfold lexemeAt
  dsimp only
  split <;> first
    | exact Nat.le_refl _
    | exact wordLexeme_length ..
    | exact stringLexeme_length ..
    | (split; exact numberLexeme_length ..; exact Nat.zero_le _)

theorem skipBlank_length (text : List Char) : (skipBlank text).length ≤ text.length :=
  (List.dropWhile_sublist isBlank).length_le

/-- The lexemes of a text, up to the first that is broken. -/
def lexemes (text : List Char) : List Lexeme :=
  match h : skipBlank text with
  | [] => []
  | c :: cs =>
    have : (lexemeAt c cs).after.length < text.length := by
      have := lexemeAt_length c cs
      have := skipBlank_length text
      simp only [h, List.length_cons] at this
      omega
    lexemeAt c cs :: lexemes (lexemeAt c cs).after
termination_by text.length

end SwiftModel.Json
