/- Induction on what a JSON value is built of. -/
import SwiftModel.Json.Value

namespace SwiftModel

/-- What passes from all items to their array, and from all members to their object, holds of every
value. -/
theorem Json.induction {motive : Json → Prop}
    (scalar : ∀ value : Json, value.kind ≠ .array → value.kind ≠ .object → motive value)
    (array : ∀ items, (∀ item ∈ items, motive item) → motive (.array items))
    (object : ∀ members, (∀ member ∈ members, motive member.2) → motive (.object members))
    (value : Json) : motive value := by
  refine @Json.rec motive (fun items => ∀ item ∈ items, motive item)
    (fun members => ∀ member ∈ members, motive member.2) (fun member => motive member.2)
    ?_ ?_ ?_ ?_ array object (fun _ member => nomatch member) ?_ (fun _ member => nomatch member) ?_
    (fun _ _ ih => ih) value
  case refine_5 =>
    intro head tail hh ht item member
    rcases List.mem_cons.mp member with rfl | later
    · exact hh
    · exact ht item later
  case refine_6 =>
    intro head tail hh ht other member
    rcases List.mem_cons.mp member with rfl | later
    · exact hh
    · exact ht other later
  all_goals
    intros
    exact scalar _ (fun same => nomatch same) fun same => nomatch same

end SwiftModel
