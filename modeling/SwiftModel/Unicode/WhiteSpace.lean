/- The Unicode property White_Space, and trimming by it. -/
import SwiftModel.Unicode.Ranges

namespace SwiftModel.Unicode

/-- The characters with the property White_Space, in ascending order. -/
def whiteSpaceRanges : Ranges :=
  [(0x0009, 0x000D), (0x0020, 0x0020), (0x0085, 0x0085), (0x00A0, 0x00A0), (0x1680, 0x1680),
   (0x2000, 0x200A), (0x2028, 0x2029), (0x202F, 0x202F), (0x205F, 0x205F), (0x3000, 0x3000)]

def isWhiteSpace (c : Char) : Bool := whiteSpaceRanges.covers c

/-- The characters between the first and the last that is no white space. -/
def trim (cs : List Char) : List Char :=
  ((cs.dropWhile isWhiteSpace).reverse.dropWhile isWhiteSpace).reverse

end SwiftModel.Unicode
