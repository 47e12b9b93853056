/- Sets of characters, given as ranges of code points. -/

namespace SwiftModel.Unicode

/-- Inclusive ranges of code points, ascending and apart from each other. -/
abbrev Ranges := List (Nat × Nat)

/-- Whether a code point lies in one of the ranges; the search ends at the first range behind it. -/
def Ranges.coversCode : Ranges → Nat → Bool
  | [], _ => false
  | (first, last) :: rest, n => decide (first ≤ n) && (decide (n ≤ last) || coversCode rest n)

def Ranges.covers (ranges : Ranges) (c : Char) : Bool := ranges.coversCode c.toNat

end SwiftModel.Unicode
