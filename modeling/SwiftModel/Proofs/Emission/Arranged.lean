/- Sorting moves the fields of a record and of those within it, and changes nothing else. -/
import SwiftModel.Proofs.Emission.Draft
import SwiftModel.Proofs.Model.Within

namespace SwiftModel.Emission

/-- A field with the fields of every record in it in the order of their keys. -/
def sortField (field : Field Base) : Field Base := { field with base := sortBase field.base }

theorem sortFieldBases_eq_map (fields : List (Field Base)) :
    sortFieldBases fields = fields.map sortField := by
  induction fields with
  | nil => rfl
  | cons field fields ih => exact congrArg (List.cons _) ih

theorem sortRecord_eq (record : Record Base) :
    sortRecord record = ⟨record.name, sortByKey (record.fields.map sortField)⟩ := by
  rw [sortRecord, sortFieldBases_eq_map]

theorem map_sortByKey (f : Field Base → Field Base) (keeps : ∀ field, (f field).key = field.key)
    (fields : List (Field Base)) : (sortByKey fields).map f = sortByKey (fields.map f) := by
  apply List.map_mergeSort
  intro a _ b _
  rw [keeps, keeps]

theorem mem_fields_sortRecord {record : Record Base} {field : Field Base} :
    field ∈ (sortRecord record).fields ↔ ∃ source ∈ record.fields, sortField source = field := by
  rw [sortRecord_eq, sortByKey, List.mem_mergeSort, List.mem_map]

theorem sortBase_eq_record {base : Base} {inner : Record Base} :
    sortBase base = .record inner ↔ ∃ source, base = .record source ∧ sortRecord source = inner := by
  cases base with
  | record source =>
      constructor
      · exact fun same => ⟨source, rfl, Base.record.inj same⟩
      · rintro ⟨_, ⟨⟩, same⟩
        exact congrArg Base.record same
  | _ => exact ⟨fun same => (nomatch same), fun ⟨_, same, _⟩ => (nomatch same)⟩

theorem sortBase_eq_named {base : Base} {name : String} :
    sortBase base = .named name ↔ base = .named name := by
  cases base with
  | record source => exact ⟨fun same => (nomatch same), fun same => (nomatch same)⟩
  | _ => exact Iff.rfl

/-- What is within a sorted record is sorted from what is within the record. -/
theorem within_sortRecord {record inner : Record Base} (h : (sortRecord record).Within inner) :
    ∃ source, record.Within source ∧ sortRecord source = inner := by
  induction h with
  | self => exact ⟨record, .self, rfl⟩
  | field _ member same ih =>
      obtain ⟨source, within, rfl⟩ := ih
      obtain ⟨field, inside, rfl⟩ := mem_fields_sortRecord.mp member
      obtain ⟨held, base, rfl⟩ := sortBase_eq_record.mp same
      exact ⟨held, .field within inside base, rfl⟩

/-! Fields are written in order, each with what it holds arranged. -/

/-- The fields of one record in the order in which they are written. -/
def Options.inOrder (options : Options) (fields : List (Field Base)) : List (Field Base) :=
  if options.sortedFields then sortByKey fields else fields

def Options.arrangedBase (options : Options) (base : Base) : Base :=
  if options.sortedFields then sortBase base else base

def Options.arrangedField (options : Options) (field : Field Base) : Field Base :=
  { field with base := options.arrangedBase field.base }

section InOrder

variable (options : Options)

theorem perm_inOrder (fields : List (Field Base)) : (options.inOrder fields).Perm fields := by
  rw [Options.inOrder]
  split
  · exact List.mergeSort_perm fields _
  · exact .refl fields

theorem arrangedBase_record (inner : Record Base) :
    options.arrangedBase (.record inner) = .record (options.arranged inner) := by
  rw [Options.arrangedBase, Options.arranged]
  split <;> rfl

theorem arrangedBase_of_ne {base : Base} (h : ∀ inner, base ≠ .record inner) :
    options.arrangedBase base = base := by
  rw [Options.arrangedBase]
  split
  · cases base with
    | record inner => exact absurd rfl (h inner)
    | _ => rfl
  · rfl

@[simp] theorem arrangedField_base (field : Field Base) :
    (options.arrangedField field).base = options.arrangedBase field.base := rfl

theorem namedAlike_arrangedField (field : Field Base) :
    NamedAlike (options.arrangedField field) field := by
  have base : scalarName? (options.arrangedBase field.base) = scalarName? field.base ∧
      (options.arrangedBase field.base).isNested = field.base.isNested := by
    by_cases record : ∃ inner, field.base = .record inner
    · obtain ⟨inner, held⟩ := record
      rw [held, arrangedBase_record]
      exact ⟨rfl, rfl⟩
    · rw [arrangedBase_of_ne options fun inner held => record ⟨inner, held⟩]
      exact ⟨rfl, rfl⟩
  exact ⟨rfl, base.1, base.2⟩

theorem fields_arranged (record : Record Base) :
    (options.arranged record).fields = (options.inOrder record.fields).map options.arrangedField := by
  rw [Options.arranged, Options.inOrder]
  cases sorted : options.sortedFields with
  | true =>
      have each : options.arrangedField = sortField := by
        funext field
        rw [Options.arrangedField, Options.arrangedBase, sorted]
        rfl
      rw [each, if_pos rfl, if_pos rfl, sortRecord_eq, map_sortByKey sortField fun _ => rfl]
  | false =>
      have each : options.arrangedField = id := by
        funext field
        rw [Options.arrangedField, Options.arrangedBase, sorted]
        rfl
      rw [each, List.map_id]
      rfl

theorem keys_arranged (record : Record Base) :
    (options.arranged record).fields.map Field.key = (options.inOrder record.fields).map Field.key := by
  rw [fields_arranged, List.map_map]
  rfl

end InOrder

theorem onlyUnsigned_arranged {record : Record Base} (h : record.OnlyUnsigned) (options : Options) :
    (options.arranged record).OnlyUnsigned := by
  rw [Options.arranged]
  split
  · intro inner within field member name same
    obtain ⟨source, inside, rfl⟩ := within_sortRecord within
    obtain ⟨field, found, rfl⟩ := mem_fields_sortRecord.mp member
    exact h source inside field found name (sortBase_eq_named.mp same)
  · exact h

end SwiftModel.Emission
