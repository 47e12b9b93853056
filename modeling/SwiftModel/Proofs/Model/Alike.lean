/- Models that differ in names and, where fields are sorted, in the order of fields. -/
import Mathlib.Data.List.Forall2
import SwiftModel.Model

namespace SwiftModel

/-- Fields as they are, or, where fields are sorted, in another order if no two have one key. -/
def Moved (sorted : Bool) (fields moved : List (Field Base)) : Prop :=
  fields = moved ∨ sorted = true ∧ (fields.map Field.key).Nodup ∧ fields.Perm moved

/-- Fields that differ in nothing but their bases. -/
structure Field.Matches (field other : Field Base) : Prop where
  key : field.key = other.key
  isArray : field.isArray = other.isArray
  isOptional : field.isOptional = other.isOptional

/-- Bases that are equal up to the names of records and, where fields are sorted, up to the order of
fields with distinct keys, at any depth. -/
inductive Base.Alike (sorted : Bool) : Base → Base → Prop
  | same (base : Base) : Alike sorted base base
  | record {name name' : String} {fields moved fields' : List (Field Base)} :
      Moved sorted fields moved → List.Forall₂ Field.Matches moved fields' →
      (∀ pair ∈ moved.zip fields', Alike sorted pair.1.base pair.2.base) →
      Alike sorted (.record ⟨name, fields⟩) (.record ⟨name', fields'⟩)

structure Field.Alike (sorted : Bool) (field other : Field Base) : Prop where
  rest : field.Matches other
  base : field.base.Alike sorted other.base

theorem Base.Alike.of_perm {fields moved fields' : List (Field Base)}
    (distinct : (fields.map Field.key).Nodup) (perm : fields.Perm moved)
    (alike : List.Forall₂ (Field.Alike true) moved fields') (name name' : String) :
    Base.Alike true (.record ⟨name, fields⟩) (.record ⟨name', fields'⟩) :=
  .record (.inr ⟨rfl, distinct, perm⟩) (alike.imp fun _ _ pair => pair.rest)
    fun _ paired => (List.forall₂_zip alike paired).base

def Model.Alike (sorted : Bool) : Model → Model → Prop
  | .record root, .record other => Base.Alike sorted (.record root) (.record other)
  | .enumeration root, .enumeration other => root.values = other.values
  | _, _ => False

end SwiftModel
