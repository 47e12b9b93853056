/- Sets of texts, written in ascending order of their code points. -/

namespace SwiftModel.Text

/-- The members of a list, ascending and each once. -/
def ordered (texts : List String) : List String :=
  (texts.mergeSort fun a b => decide (a ≤ b)).eraseReps

end SwiftModel.Text
