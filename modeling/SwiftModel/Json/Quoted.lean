/- Strings as JSON quotes them: plain characters and escapes, closed by a quotation mark. -/
import SwiftModel.Json.Fault

namespace SwiftModel.Json

/-- What a string has at one place: a character, or a UTF-16 unit given by an escape. -/
inductive StringUnit
  | plain (c : Char)
  | code (value : Nat)
deriving DecidableEq

structure StringPiece where
  unit : StringUnit
  after : List Char
deriving DecidableEq

/-- How a string ends: with its quotation mark, or where its text breaks off. -/
inductive StringStop
  | closed (after : List Char)
  | broken (fault : Fault)
  /-- A control character, which no string may hold. -/
  | control (unread : List Char)
deriving DecidableEq

def hexDigit? (c : Char) : Option Nat :=
  if '0' ≤ c ∧ c ≤ '9' then some (c.toNat - '0'.toNat)
  else if 'a' ≤ c ∧ c ≤ 'f' then some (c.toNat - 'a'.toNat + 10)
  else if 'A' ≤ c ∧ c ≤ 'F' then some (c.toNat - 'A'.toNat + 10)
  else none

def hexUnit? (a b c d : Char) : Option Nat := do
  return (((← hexDigit? a) * 16 + (← hexDigit? b)) * 16 + (← hexDigit? c)) * 16 + (← hexDigit? d)

/-- What is wrong with a text that should begin with four hexadecimal digits and does not. -/
def hexFault (text : List Char) : Fault :=
  if byteCount text < 4 then ⟨.endInString, .end⟩ else ⟨.invalidEscape, ⟨text, 4⟩⟩

def simpleEscape? : Char → Option Char
  | '"' => some '"'
  | '\\' => some '\\'
  | '/' => some '/'
  | 'b' => some '\x08'
  | 'f' => some '\x0c'
  | 'n' => some '\n'
  | 'r' => some '\r'
  | 't' => some '\t'
  | _ => none

/-- A unit in front of a string that is scanned already. -/
def StringUnit.onto (unit : StringUnit) (after : List Char)
    (rest : List StringPiece × StringStop) : List StringPiece × StringStop :=
  (⟨unit, after⟩ :: rest.1, rest.2)

def scanString : List Char → List StringPiece × StringStop
  | [] => ([], .broken ⟨.endInString, .end⟩)
  | c :: cs =>
    if c = '"' then ([], .closed cs)
    else if c = '\\' then
      match cs with
      | [] => ([], .broken ⟨.endInString, .end⟩)
      | 'u' :: h₁ :: h₂ :: h₃ :: h₄ :: rest =>
        match hexUnit? h₁ h₂ h₃ h₄ with
        | some value => (StringUnit.code value).onto rest (scanString rest)
        | none => ([], .broken (hexFault (h₁ :: h₂ :: h₃ :: h₄ :: rest)))
      | 'u' :: rest => ([], .broken (hexFault rest))
      | e :: rest =>
        match simpleEscape? e with
        | some escaped => (StringUnit.plain escaped).onto rest (scanString rest)
        | none => ([], .broken ⟨.invalidEscape, .at (e :: rest)⟩)
    else if c.toNat < 0x20 then ([], .control (c :: cs))
    else (StringUnit.plain c).onto cs (scanString cs)

def isHighSurrogate (unit : Nat) : Bool := 0xD800 ≤ unit && unit ≤ 0xDBFF

def isLowSurrogate (unit : Nat) : Bool := 0xDC00 ≤ unit && unit ≤ 0xDFFF

def surrogatePair (high low : Nat) : Char :=
  .ofNat (0x10000 + (high - 0xD800) * 0x400 + (low - 0xDC00))

def StringStop.fault? : StringStop → Option Fault
  | .closed _ => none
  | .broken fault => some fault
  | .control unread => some ⟨.controlCharacter, .at unread⟩

/-- What is wrong where nothing but the end of the string is looked for. -/
def StringStop.skippedFault? : StringStop → Option Fault
  | .control unread => some ⟨.controlCharacter, .before unread⟩
  | stop => stop.fault?

/-- What is wrong behind a high surrogate that no other escape of a unit follows. -/
def unpairedFault (stop : StringStop) : List Char → Fault
  | [] | ['\\'] => ⟨.endInString, .end⟩
  | '\\' :: 'u' :: after => stop.fault?.getD ⟨.brokenSurrogatePair, .at after⟩
  | '\\' :: e :: after => ⟨.brokenSurrogatePair, .at (e :: after)⟩
  | after => ⟨.brokenSurrogatePair, .at after⟩

/-- The characters of a string; surrogates must come in pairs. -/
def decodePieces (stop : StringStop) : List StringPiece → Except Fault (List Char)
  | [] =>
    match stop.fault? with
    | some fault => .error fault
    | none => .ok []
  | ⟨.plain c, _⟩ :: pieces => (decodePieces stop pieces).map (c :: ·)
  | ⟨.code unit, after⟩ :: pieces =>
    if isLowSurrogate unit then .error ⟨.loneSurrogate, .before after⟩
    else if isHighSurrogate unit then
      match pieces with
      | ⟨.code low, after⟩ :: pieces =>
        if isLowSurrogate low then (decodePieces stop pieces).map (surrogatePair unit low :: ·)
        else .error ⟨.loneSurrogate, .before after⟩
      | _ => .error (unpairedFault stop after)
    else (decodePieces stop pieces).map (Char.ofNat unit :: ·)

def decodeString (scanned : List StringPiece × StringStop) : Except Fault String :=
  (decodePieces scanned.2 scanned.1).map String.ofList

theorem scanString_closed_length {text after : List Char}
    (h : (scanString text).2 = .closed after) : after.length < text.length := by
  fun_induction scanString text <;> simp_all only [StringUnit.onto, List.length_cons] <;> grind

end SwiftModel.Json
