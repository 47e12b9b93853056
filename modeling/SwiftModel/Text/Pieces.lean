/- Cutting a sequence at a separator. -/

namespace SwiftModel.Text

/-- The stretches between the occurrences of `sep`; there is one more of them than there are
occurrences. -/
def pieces (sep : Char) : List Char → List (List Char)
  | [] => [[]]
  | c :: cs =>
    if c = sep then [] :: pieces sep cs
    else
      match pieces sep cs with
      | [] => [[c]]
      | piece :: rest => (c :: piece) :: rest

def split (sep : Char) (text : String) : List String :=
  (pieces sep text.toList).map String.ofList

end SwiftModel.Text
