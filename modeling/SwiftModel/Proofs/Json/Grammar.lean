/- The texts of JSON as a grammar gives them: what may stand for a value, with the blanks and the escapes
that are left to the writer. -/
import SwiftModel.Json.Lexeme

namespace SwiftModel.Json

abbrev Language := List Char → Prop

def Blank : Language := fun text => ∀ c ∈ text, c ∈ [' ', '\t', '\n', '\r']

/-! Strings: the units between the quotation marks, and the characters that the units stand for. -/

def decimalDigits : List Char := ['0', '1', '2', '3', '4', '5', '6', '7', '8', '9']

def HexDigit (value : Nat) (c : Char) : Prop :=
  (decimalDigits ++ ['a', 'b', 'c', 'd', 'e', 'f'])[value]? = some c ∨
    (decimalDigits ++ ['A', 'B', 'C', 'D', 'E', 'F'])[value]? = some c

/-- The letters of the short escapes, with what they stand for. -/
def shortEscapes : List (Char × Char) :=
  [('"', '"'), ('\\', '\\'), ('/', '/'), ('b', '\x08'), ('f', '\x0c'), ('n', '\n'), ('r', '\r'), ('t', '\t')]

inductive UnitText : StringUnit → List Char → Prop
  | plain {c : Char} : c ≠ '"' → c ≠ '\\' → 0x20 ≤ c.toNat → UnitText (.plain c) [c]
  | short {e c : Char} : (e, c) ∈ shortEscapes → UnitText (.plain c) ['\\', e]
  | code {a b c d : Char} {h i j k : Nat} : HexDigit h a → HexDigit i b → HexDigit j c → HexDigit k d →
    UnitText (.code (((h * 16 + i) * 16 + j) * 16 + k)) ['\\', 'u', a, b, c, d]

inductive UnitsText : List StringUnit → List Char → Prop
  | nil : UnitsText [] []
  | cons {unit : StringUnit} {units : List StringUnit} {first rest : List Char} : UnitText unit first →
    UnitsText units rest → UnitsText (unit :: units) (first ++ rest)

/-- The characters of units; those that sixteen bits do not hold take two units. -/
inductive Characters : List StringUnit → List Char → Prop
  | nil : Characters [] []
  | plain {c : Char} {units : List StringUnit} {cs : List Char} : Characters units cs →
    Characters (.plain c :: units) (c :: cs)
  | single {c : Char} {units : List StringUnit} {cs : List Char} : c.toNat < 0x10000 →
    Characters units cs → Characters (.code c.toNat :: units) (c :: cs)
  | pair {c : Char} {units : List StringUnit} {cs : List Char} {high low : Nat} :
    c.toNat = 0x10000 + high * 0x400 + low → low < 0x400 → Characters units cs →
    Characters (.code (0xD800 + high) :: .code (0xDC00 + low) :: units) (c :: cs)

/-- A text in quotation marks; its units need not make characters. -/
def QuotedText : Language := fun text => ∃ units body, UnitsText units body ∧ text = '"' :: (body ++ ['"'])

def StringText (content : String) : Language := fun text =>
  ∃ units body, UnitsText units body ∧ Characters units content.toList ∧ text = '"' :: (body ++ ['"'])

/-! Words and numbers. -/

def wordNull : List Char := ['n', 'u', 'l', 'l']

def wordBoolean : Bool → List Char
  | true => ['t', 'r', 'u', 'e']
  | false => ['f', 'a', 'l', 's', 'e']

def BooleanText (value : Bool) : Language := fun text => text = wordBoolean value

def Digits : Language := fun text => text ≠ [] ∧ ∀ c ∈ text, c ∈ decimalDigits

def WholeText : Language := fun text => Digits text ∧ (text.head? = some '0' → text = ['0'])

def FractionText : Language := fun text => text = [] ∨ ∃ digits, Digits digits ∧ text = '.' :: digits

def ExponentText : Language := fun text =>
  text = [] ∨ ∃ e sign digits, e ∈ ['e', 'E'] ∧ sign ∈ [[], ['+'], ['-']] ∧ Digits digits ∧
    text = e :: (sign ++ digits)

def NumberText : Language := fun text =>
  ∃ sign whole fraction exponent, sign ∈ [[], ['-']] ∧ WholeText whole ∧ FractionText fraction ∧
    ExponentText exponent ∧ text = sign ++ (whole ++ (fraction ++ exponent))

/-- A natural number in its digits. -/
def NaturalText (n : Nat) : Language := fun text => text = Nat.toDigits 10 n

/-! Containers, made of the languages of what they contain. -/

def Padded (inner : Language) : Language := fun text =>
  ∃ before body after, Blank before ∧ inner body ∧ Blank after ∧ text = before ++ (body ++ after)

inductive Listed : List Language → List Char → Prop
  | last {item : Language} {text : List Char} : Padded item text → Listed [item] text
  | more {item : Language} {items : List Language} {text rest : List Char} : Padded item text →
    Listed items rest → Listed (item :: items) (text ++ ',' :: rest)

inductive Delimited (opening closing : Char) : List Language → List Char → Prop
  | none {blank : List Char} : Blank blank → Delimited opening closing [] (opening :: (blank ++ [closing]))
  | some {items : List Language} {text : List Char} : Listed items text →
    Delimited opening closing items (opening :: (text ++ [closing]))

def ArrayText (items : List Language) : Language := Delimited '[' ']' items

def MemberText (key value : Language) : Language := fun text =>
  ∃ name before after body, key name ∧ Blank before ∧ Blank after ∧ value body ∧
    text = name ++ (before ++ ':' :: (after ++ body))

/-- An object, of which the keys are given by their contents. -/
def ObjectText (members : List (String × Language)) : Language :=
  Delimited '{' '}' (members.map fun member => MemberText (StringText member.1) member.2)

/-- Any value. -/
inductive ValueText : List Char → Prop
  | word {text : List Char} : text ∈ [wordNull, wordBoolean true, wordBoolean false] → ValueText text
  | number {text : List Char} : NumberText text → ValueText text
  | string {text : List Char} : QuotedText text → ValueText text
  | array {items : List Language} {text : List Char} :
    (∀ item ∈ items, ∀ body, item body → ValueText body) → ArrayText items text → ValueText text
  | object {values : List Language} {text : List Char} :
    (∀ value ∈ values, ∀ body, value body → ValueText body) →
    Delimited '{' '}' (values.map (MemberText QuotedText)) text → ValueText text

end SwiftModel.Json
