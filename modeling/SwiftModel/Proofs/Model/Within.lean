/- The records within a record, and models apart from the names that their records carry. -/
import SwiftModel.Proofs.Model.Induction

namespace SwiftModel

/-- A record within another is that record, or what a field of a record within it holds. -/
inductive Record.Within (outer : Record Base) : Record Base → Prop
  | self : Within outer outer
  | field {record inner : Record Base} {field : Field Base} :
      Within outer record → field ∈ record.fields → field.base = .record inner → Within outer inner

theorem Record.Within.trans {outer middle inner : Record Base} (h : outer.Within middle)
    (h' : middle.Within inner) : outer.Within inner := by
  induction h' with
  | self => exact h
  | field _ member same ih => exact .field ih member same

/-- What is within a record is the record itself, or within one that a field holds. -/
theorem Record.Within.cases_head {outer inner : Record Base} (h : outer.Within inner) :
    inner = outer ∨ ∃ field ∈ outer.fields, ∃ held, field.base = .record held ∧ held.Within inner := by
  induction h with
  | self => exact .inl rfl
  | field _ member same ih =>
      rcases ih with rfl | ⟨first, inside, held, base, within⟩
      · exact .inr ⟨_, member, _, same, .self⟩
      · exact .inr ⟨first, inside, held, base, .field within member same⟩

/-- The only types that a record takes as they are written are the unsigned integers. -/
def Record.OnlyUnsigned (record : Record Base) : Prop :=
  ∀ inner, record.Within inner → ∀ field ∈ inner.fields, ∀ name,
    field.base = .named name → name = "UInt"

def Base.OnlyUnsigned : Base → Prop
  | .named name => name = "UInt"
  | .record inner => inner.OnlyUnsigned
  | _ => True

theorem Record.OnlyUnsigned.inner {record inner : Record Base} (h : record.OnlyUnsigned)
    {field : Field Base} (member : field ∈ record.fields) (same : field.base = .record inner) :
    inner.OnlyUnsigned := fun other within =>
  h other ((Within.field .self member same).trans within)

theorem Record.OnlyUnsigned.intro {record : Record Base}
    (h : ∀ field ∈ record.fields, field.base.OnlyUnsigned) : record.OnlyUnsigned := by
  intro inner within
  rcases within.cases_head with rfl | ⟨field, member, held, same, deeper⟩
  · intro field member name same
    have unsigned := h field member
    rw [same] at unsigned
    exact unsigned
  · have unsigned := h field member
    rw [same] at unsigned
    exact unsigned inner deeper

def Model.OnlyUnsigned : Model → Prop
  | .record root => root.OnlyUnsigned
  | .enumeration _ => True

mutual

/-- A base without the names of the records in it. -/
def Base.unnamed : Base → Base
  | .record inner => .record inner.unnamed
  | base => base
termination_by structural base => base

def Record.unnamed : Record Base → Record Base
  | ⟨_, fields⟩ => ⟨"", unnamedFields fields⟩
termination_by structural record => record

def unnamedFields : List (Field Base) → List (Field Base)
  | [] => []
  | ⟨key, base, isArray, isOptional⟩ :: fields =>
    ⟨key, base.unnamed, isArray, isOptional⟩ :: unnamedFields fields
termination_by structural fields => fields

end

def Field.unnamed (field : Field Base) : Field Base := { field with base := field.base.unnamed }

theorem unnamedFields_eq_map (fields : List (Field Base)) :
    unnamedFields fields = fields.map Field.unnamed := by
  induction fields with
  | nil => rfl
  | cons field fields ih => exact congrArg (List.cons _) ih

theorem Record.unnamed_eq (record : Record Base) :
    record.unnamed = ⟨"", record.fields.map Field.unnamed⟩ := by
  rw [unnamed, unnamedFields_eq_map]

/-- A model without the names of its records and of its enumeration. -/
def Model.unnamed : Model → Model
  | .record root => .record root.unnamed
  | .enumeration root => .enumeration ⟨"", root.values⟩

end SwiftModel
