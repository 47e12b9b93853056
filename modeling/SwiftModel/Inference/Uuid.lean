/- The canonical form of a UUID. -/
import SwiftModel.Json.Quoted
import SwiftModel.Text.Pieces

namespace SwiftModel.Inference

def isHexDigit (c : Char) : Bool := (Json.hexDigit? c).isSome

/-- Hexadecimal digits in groups of 8, 4, 4, 4 and 12, with hyphens between the groups. -/
def isUuid (text : String) : Bool :=
  let groups := Text.pieces '-' text.toList
  groups.map List.length == [8, 4, 4, 4, 12] && groups.all (·.all isHexDigit)

end SwiftModel.Inference
