/- What is emitted shows neither the names that a model has for its records nor the order in which the
interfaces are given nor, where fields are sorted, the order in which a record has its fields. -/
import SwiftModel.Proofs.Emission.Accepted
import SwiftModel.Proofs.Emission.Arranged
import SwiftModel.Proofs.Model.Alike
import SwiftModel.Proofs.Text.Ordered

namespace SwiftModel.Emission

/-! Fields with distinct keys are sorted to one list, whatever order they come in. -/

theorem sortByKey_eq_of_perm {fields moved : List (Field Base)} (perm : fields.Perm moved)
    (distinct : (fields.map Field.key).Nodup) : sortByKey fields = sortByKey moved := by
  have moves : (sortByKey fields).Perm (sortByKey moved) :=
    (List.mergeSort_perm fields _).trans (perm.trans (List.mergeSort_perm moved _).symm)
  refine moves.eq_of_pairwise ?_ (Text.pairwise_mergeSort Field.key fields)
    (Text.pairwise_mergeSort Field.key moved)
  intro a b here there least greatest
  have inside : a ∈ fields := List.mem_mergeSort.mp here
  have inside' : b ∈ fields := perm.mem_iff.mpr (List.mem_mergeSort.mp there)
  exact List.inj_on_of_nodup_map distinct inside inside' (le_antisymm least greatest)

/-! What a base shows of itself: its fields as they are written, and no names. -/

/-- A field with another base. -/
def withBase (f : Base → Base) (field : Field Base) : Field Base := { field with base := f field.base }

def shown (sorted : Bool) (base : Base) : Base := (if sorted then sortBase base else base).unnamed

theorem shown_record_false (name : String) (fields : List (Field Base)) :
    shown false (.record ⟨name, fields⟩) = .record ⟨"", fields.map (withBase (shown false))⟩ := by
  change Base.record (Record.unnamed ⟨name, fields⟩) = _
  rw [Record.unnamed_eq]
  rfl

theorem shown_record_true (name : String) (fields : List (Field Base)) :
    shown true (.record ⟨name, fields⟩) =
      .record ⟨"", sortByKey (fields.map (withBase (shown true)))⟩ := by
  change Base.record (Record.unnamed (sortRecord ⟨name, fields⟩)) = _
  rw [Record.unnamed_eq, sortRecord_eq, map_sortByKey Field.unnamed fun _ => rfl, List.map_map]
  rfl

theorem map_withBase_eq {f : Base → Base} {fields others : List (Field Base)}
    (matching : List.Forall₂ Field.Matches fields others)
    (bases : ∀ pair ∈ fields.zip others, f pair.1.base = f pair.2.base) :
    fields.map (withBase f) = others.map (withBase f) := by
  induction matching with
  | nil => rfl
  | @cons field other fields others first _ ih =>
      have base := bases (field, other) List.mem_cons_self
      have head : withBase f field = withBase f other := by
        rw [withBase, withBase, base, first.key, first.isArray, first.isOptional]
      rw [List.map_cons, List.map_cons, head,
        ih fun pair later => bases pair (List.mem_cons_of_mem _ later)]

/-- By induction on how they are alike: before fields are sorted, what they hold is. -/
theorem shown_eq_of_alike {sorted : Bool} {base other : Base} (alike : base.Alike sorted other) :
    shown sorted base = shown sorted other := by
  induction alike with
  | same => rfl
  | @record name name' fields moved fields' order matching _ ih =>
      have same := map_withBase_eq matching ih
      cases sorted with
      | false =>
          rcases order with rfl | ⟨unsorted, -⟩
          · rw [shown_record_false, shown_record_false, same]
          · cases unsorted
      | true =>
          rw [shown_record_true, shown_record_true, ← same]
          rcases order with rfl | ⟨-, distinct, perm⟩
          · rfl
          · rw [sortByKey_eq_of_perm (perm.map (withBase (shown true)))]
            rw [List.map_map]
            exact distinct

/-! Neither the names in a record nor the interfaces have to do with what it is declared as. -/

section Declared

variable (options : Options) (interfaces : List String)

theorem namedAlike_unnamed (field : Field Base) : NamedAlike field.unnamed field := by
  obtain ⟨key, base, isArray, isOptional⟩ := field
  cases base <;> exact ⟨rfl, rfl, rfl⟩

theorem fieldName_unnamed (field : Field Base) (property : String) :
    Options.fieldName { options with interfaces } field.unnamed property =
      options.fieldName field property := (namedAlike_unnamed field).fieldName options property

theorem takesTaken_unnamed (taken : List String) (field : Field Base) (property : String) :
    Options.TakesTaken { options with interfaces } taken field.unnamed property ↔
      options.TakesTaken taken field property := (namedAlike_unnamed field).takesTaken options taken property

theorem takenAfter_unnamed (taken : List String) (field : Field Base) (property : String) :
    Options.takenAfter { options with interfaces } taken field.unnamed property =
      options.takenAfter taken field property := (namedAlike_unnamed field).takenAfter options taken property

theorem declareBase_unnamed {base : Base}
    (ih : ∀ inner, base = .record inner → ∀ name,
      declareRecord { options with interfaces } name inner.unnamed = declareRecord options name inner)
    (name : String) :
    declareBase { options with interfaces } name base.unnamed = declareBase options name base := by
  cases base with
  | record inner => rw [Base.unnamed, declareBase_record, declareBase_record, ih inner rfl]
  | _ => rfl

theorem declareFields_unnamed {fields : List (Field Base)}
    (ih : ∀ field ∈ fields, ∀ inner, field.base = .record inner → ∀ name,
      declareRecord { options with interfaces } name inner.unnamed = declareRecord options name inner)
    (parent : String) (taken properties : List String) :
    declareFields { options with interfaces } parent taken (fields.map Field.unnamed) properties =
      declareFields options parent taken fields properties := by
  induction fields generalizing taken properties with
  | nil => rfl
  | cons field fields tail =>
      cases properties with
      | nil => rfl
      | cons property properties =>
          rw [List.map_cons]
          by_cases clash : options.TakesTaken taken field property
          · have clash' := (takesTaken_unnamed options interfaces taken field property).mpr clash
            rw [declareFields_cons_of_takesTaken clash, declareFields_cons_of_takesTaken clash',
              fieldName_unnamed]
          · have free := mt (takesTaken_unnamed options interfaces taken field property).mp clash
            have base := declareBase_unnamed options interfaces (ih field List.mem_cons_self)
              (options.fieldName field property)
            have rest := tail (fun other later => ih other (List.mem_cons_of_mem field later))
              (options.takenAfter taken field property) properties
            rw [declareFields_cons clash, declareFields_cons free, fieldName_unnamed,
              takenAfter_unnamed, rest, Field.unnamed, base]

/-- By induction on the record: a name is given to a declaration from without. -/
theorem declareRecord_unnamed (name : String) (record : Record Base) :
    declareRecord { options with interfaces } name record.unnamed = declareRecord options name record := by
  induction record using Record.induction generalizing name with
  | step record ih =>
      have keys : (record.fields.map Field.unnamed).map Field.key = record.fields.map Field.key := by
        rw [List.map_map]
        rfl
      have fields := declareFields_unnamed options interfaces
        (fun field member inner same name => ih field member inner same name) name
      rw [declareRecord_eq, declareRecord_eq, Record.unnamed_eq]
      simp only [Options.properties, keys, fields]
      rfl

end Declared

/-- Options that differ at most in the order and the repetition of the interfaces. -/
structure Options.Alike (options other : Options) : Prop where
  rest : other = { options with interfaces := other.interfaces }
  interfaces : ∀ name, name ∈ options.interfaces ↔ name ∈ other.interfaces

theorem Options.Alike.symm {options other : Options} (alike : options.Alike other) :
    other.Alike options := by
  refine ⟨?_, fun name => (alike.interfaces name).symm⟩
  rw [alike.rest]

section Emitted

variable {options other : Options}

theorem Options.Alike.text (alike : options.Alike other) (declaration : Declaration) :
    options.text declaration = other.text declaration := by
  have written : options.writtenInterfaces = other.writtenInterfaces :=
    Text.ordered_congr alike.interfaces
  rw [Options.text, Options.text, Options.layout, Options.layout, ← written, alike.rest]

theorem shown_record (options : Options) (record : Record Base) :
    shown options.sortedFields (.record record) = .record (options.arranged record).unnamed := by
  rw [shown, Options.arranged]
  cases options.sortedFields <;> rfl

theorem declareRecord_eq_of_shown {record record' : Record Base} (alike : options.Alike other)
    (same : shown options.sortedFields (.record record) =
      shown options.sortedFields (.record record')) :
    declareRecord options options.rootName (options.arranged record) =
      declareRecord other other.rootName (other.arranged record') := by
  rw [shown_record, shown_record] at same
  rw [alike.rest, ← declareRecord_unnamed options other.interfaces, Base.record.inj same]
  exact declareRecord_unnamed { options with interfaces := other.interfaces } other.interfaces
    options.rootName (options.arranged record')

theorem declare_eq_of_alike (alike : options.Alike other) {model moved : Model}
    (models : model.Alike options.sortedFields moved) :
    declare options model = declare other moved := by
  cases model with
  | record root =>
      cases moved with
      | record root' => exact declareRecord_eq_of_shown alike (shown_eq_of_alike models)
      | enumeration root' => exact models.elim
  | enumeration root =>
      cases moved with
      | record root' => exact models.elim
      | enumeration root' =>
          have values : root.values = root'.values := models
          rw [declare, declare, values, alike.rest]
          rfl

theorem emit_eq_of_alike (valid : options.refusal? = none) (valid' : other.refusal? = none)
    (alike : options.Alike other) {model moved : Model}
    (models : model.Alike options.sortedFields moved) : emit model options = emit moved other := by
  rw [emit_eq valid, emit_eq valid', declare_eq_of_alike alike models]
  cases declare other moved with
  | error clash => rfl
  | ok declaration => exact congrArg Except.ok (alike.text declaration)

end Emitted

end SwiftModel.Emission
