/- Snake case and camel case: underscores separate the words of a name, save at its two ends,
where they stay. -/
import SwiftModel.Text.Pieces
import SwiftModel.Unicode.Uppercase

namespace SwiftModel.Identifier
open SwiftModel.Text SwiftModel.Unicode

def leading (name : List Char) : List Char := name.takeWhile (· == '_')

def trailing (name : List Char) : List Char := name.reverse.takeWhile (· == '_')

def words (name : List Char) : List (List Char) :=
  (pieces '_' name).filter (! ·.isEmpty)

def capitalized : List Char → List Char
  | [] => []
  | c :: cs => upper c ++ cs

/-- Camel case: `long_path` becomes `longPath`, and a name without words stays as it is. -/
def camelCase (name : List Char) : List Char :=
  match words name with
  | [] => name
  | first :: rest => leading name ++ first ++ rest.flatMap capitalized ++ trailing name

/-- Camel case with a capital in front: `long_path` becomes `LongPath`. -/
def upperCamelCase (name : List Char) : List Char :=
  let camel := camelCase name
  leading camel ++ capitalized (camel.dropWhile (· == '_'))

end SwiftModel.Identifier
