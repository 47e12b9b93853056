/- Induction on what a model is built of. -/
import SwiftModel.Model

namespace SwiftModel

/-- What passes from the bases of all fields to their record holds of every base. -/
theorem Base.induction {motive : Base → Prop}
    (scalar : ∀ base, (∀ inner, base ≠ .record inner) → motive base)
    (record : ∀ inner : Record Base, (∀ field ∈ inner.fields, motive field.base) →
      motive (.record inner)) (base : Base) : motive base := by
  refine @Base.rec motive (fun inner => ∀ field ∈ inner.fields, motive field.base)
    (fun fields => ∀ field ∈ fields, motive field.base) (fun field => motive field.base)
    ?_ ?_ ?_ ?_ ?_ ?_ ?_ record ?_ (fun _ _ ih => ih) (fun _ member => nomatch member) ?_
    (fun _ _ _ _ ih => ih) base
  case refine_9 =>
    intro head tail hh ht field member
    rcases List.mem_cons.mp member with rfl | later
    · exact hh
    · exact ht field later
  all_goals
    intros
    exact scalar _ fun _ same => nomatch same

theorem Record.induction {motive : Record Base → Prop}
    (step : ∀ record : Record Base,
      (∀ field ∈ record.fields, ∀ inner, field.base = .record inner → motive inner) →
        motive record) (record : Record Base) : motive record := by
  have all : ∀ base : Base, ∀ inner, base = .record inner → motive inner := by
    intro base
    induction base using Base.induction with
    | scalar base h => exact fun inner same => absurd same (h inner)
    | record inner ih =>
        intro other same
        cases same
        exact step inner ih
  exact all (.record record) record rfl

end SwiftModel
