/- Texts in quotation marks, in which everything that is not seen has an escape. -/
import SwiftModel.Unicode.Visible

namespace SwiftModel.Text

/-- The escape of a character by its code point. -/
def codeEscape (c : Char) : List Char :=
  ['\\', 'u', '\x7b'] ++ Nat.toDigits 16 c.toNat ++ ['\x7d']

/-- A character as it is shown. -/
def shownCharacter : Char → List Char
  | '\x00' => ['\\', '0']
  | '\t' => ['\\', 't']
  | '\r' => ['\\', 'r']
  | '\n' => ['\\', 'n']
  | '"' => ['\\', '"']
  | '\\' => ['\\', '\\']
  | c => if Unicode.isVisible c then [c] else codeEscape c

def shown (text : String) : String :=
  "\"" ++ .ofList (text.toList.flatMap shownCharacter) ++ "\""

end SwiftModel.Text
