/- The indentation as it is written on a command line. -/
import SwiftModel.Emission.Options
import SwiftModel.Unicode.WhiteSpace

namespace SwiftModel.Emission

/-- A whole number below `2 ^ 64`, with a plus sign in front or without. -/
def wholeNumber? (text : List Char) : Option Nat :=
  let digits :=
    match text with
    | '+' :: rest => rest
    | rest => rest
  if digits.isEmpty || !digits.all Char.isDigit then none
  else
    let value := digits.foldl (fun n c => n * 10 + (c.toNat - '0'.toNat)) 0
    if value < Nat.pow 2 64 then some value else none

/-- The indentation of a text: the word `tab`, or a number of spaces; white space around it is
free. -/
def Indent.ofText? (text : String) : Option Indent :=
  let trimmed := Unicode.trim text.toList
  if trimmed = "tab".toList then some .tab
  else (wholeNumber? trimmed).map Indent.spaces

def Indent.text : Indent → String
  | .spaces width => toString width
  | .tab => "tab"

def indentComplaint (text : String) : String :=
  "expected \x60tab\x60 or a number of spaces, got \x60" ++ text ++ "\x60"

end SwiftModel.Emission
