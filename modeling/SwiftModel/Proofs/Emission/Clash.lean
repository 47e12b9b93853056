/- Where names clash: a record is declared unless two types beside each other in it, or in a record
within it, would have one name; the clash that is told is the first in the order of the text. -/
import SwiftModel.Proofs.Emission.Draft

namespace SwiftModel.Emission
open SwiftModel.Identifier

def Options.nestedName? (options : Options) (field : Field Base) (property : String) :
    Option String :=
  if field.base.isNested then some (options.declaredName property field.isArray) else none

def Options.nestedNames (options : Options) (fields : List (Field Base)) : List (Option String) :=
  List.zipWith options.nestedName? fields (options.properties fields)

/-- A record has a key table if it has fields, and one of them is named otherwise than its key or
the table is always asked for. -/
def Options.WritesKeyTable (options : Options) (fields : List (Field Base)) : Prop :=
  fields ≠ [] ∧ (options.alwaysKeyTable = true ∨ options.properties fields ≠ fields.map Field.key)

/-- The field at an index declares its type under a name that a field before it has taken, or that
is the name of the key table. -/
structure SiblingClash (options : Options) (fields : List (Field Base)) (index : Nat)
    (name : String) : Prop where
  declared : (options.nestedNames fields)[index]? = some (some name)
  taken : (∃ earlier < index, (options.nestedNames fields)[earlier]? = some (some name)) ∨
    (name = keyTableName ∧ options.WritesKeyTable fields)

/-- A clash in a record that is declared under a name, or in a record within it; the path leads to
it by the indices of fields. -/
inductive ClashAlong (options : Options) : String → Record Base → List Nat → Clash → Prop
  | here {parent : String} {record : Record Base} {index : Nat} {name : String} :
      SiblingClash options record.fields index name →
      ClashAlong options parent record [index] ⟨parent, name⟩
  | within {parent name : String} {record inner : Record Base} {field : Field Base} {index : Nat}
      {path : List Nat} {clash : Clash} :
      record.fields[index]? = some field → field.base = .record inner →
      (options.nestedNames record.fields)[index]? = some (some name) →
      ClashAlong options name inner path clash →
      ClashAlong options parent record (index :: path) clash

/-- A clash with none before it. Paths are in the order of the text: what is within a field comes
after the field itself and before the fields behind it. -/
def IsFirst (clashes : List Nat → Clash → Prop) (path : List Nat) (clash : Clash) : Prop :=
  clashes path clash ∧ ∀ other otherClash, clashes other otherClash → ¬ other < path

/-- What the result of declaring tells about the clashes there are. -/
def Reports {δ : Type} (clashes : List Nat → Clash → Prop) : Except Clash δ → Prop
  | .ok _ => ∀ path clash, ¬ clashes path clash
  | .error clash => ∃ path, IsFirst clashes path clash

theorem scalarName?_of_isNested {base : Base} (h : base.isNested = true) :
    scalarName? base = none := by
  cases base with
  | record inner => rfl
  | choice values => rfl
  | _ => cases h

theorem fieldName_of_isNested {options : Options} {field : Field Base} (property : String)
    (h : field.base.isNested = true) :
    options.fieldName field property = options.declaredName property field.isArray := by
  rw [Options.fieldName, Options.baseName, scalarName?_of_isNested h]
  rfl

theorem nestedName?_eq_some {options : Options} {field : Field Base} {property name : String} :
    options.nestedName? field property = some name ↔
      field.base.isNested = true ∧ options.fieldName field property = name := by
  rw [Options.nestedName?]
  split
  next h => rw [Option.some.injEq, fieldName_of_isNested property h, and_iff_right h]
  next h => exact ⟨fun none => (nomatch none), fun nested => absurd nested.1 h⟩

theorem mem_takenNames {name : String} {keyTable : Option (List Case)} :
    name ∈ takenNames keyTable ↔ name = keyTableName ∧ keyTable.isSome = true := by
  rw [takenNames]
  split
  next h => rw [List.mem_singleton, and_iff_left h]
  next h => exact ⟨fun member => (nomatch member), fun some => absurd some.2 h⟩

theorem any_zipWith_ne {names keys : List String} (h : names.length = keys.length) :
    ((List.zipWith Case.mk names keys).any fun c => c.name != c.raw) = true ↔ names ≠ keys := by
  induction names generalizing keys with
  | nil =>
      cases keys with
      | nil => exact ⟨fun any => (nomatch any), fun ne => absurd rfl ne⟩
      | cons key keys => cases h
  | cons name names ih =>
      cases keys with
      | nil => cases h
      | cons key keys =>
          rw [List.zipWith_cons_cons, List.any_cons, Bool.or_eq_true, ih (Nat.succ.inj h),
            bne_iff_ne, ne_eq (name :: names), List.cons.injEq, Classical.not_and_iff_not_or_not]

theorem isSome_keyTable? {options : Options} {fields : List (Field Base)} :
    (options.keyTable? (fields.map Field.key)).isSome = true ↔ options.WritesKeyTable fields := by
  have renamed := any_zipWith_ne (length_identifiers options (fields.map Field.key))
  rw [Options.keyTable?, Options.WritesKeyTable, Options.properties, ← renamed]
  cases fields with
  | nil => simp
  | cons field fields =>
      simp only [Options.cases, List.map_cons, List.isEmpty_cons, Bool.not_false, Bool.and_true,
        Bool.or_eq_true, ne_eq, reduceCtorEq, not_false_eq_true, true_and]
      split
      next h => exact iff_of_true rfl h
      next h => exact iff_of_false Bool.false_ne_true h

/-! The fields of a record one after the other. -/

/-- A clash among fields under their identifiers, or within one of them, where names are taken
before the first. -/
inductive FieldsClash (options : Options) (parent : String) (taken : List String)
    (fields : List (Field Base)) (properties : List String) : List Nat → Clash → Prop
  | here {index : Nat} {name : String} :
      (List.zipWith options.nestedName? fields properties)[index]? = some (some name) →
      (name ∈ taken ∨ ∃ earlier < index,
        (List.zipWith options.nestedName? fields properties)[earlier]? = some (some name)) →
      FieldsClash options parent taken fields properties [index] ⟨parent, name⟩
  | within {name : String} {inner : Record Base} {field : Field Base} {index : Nat}
      {path : List Nat} {clash : Clash} :
      fields[index]? = some field → field.base = .record inner →
      (List.zipWith options.nestedName? fields properties)[index]? = some (some name) →
      ClashAlong options name inner path clash →
      FieldsClash options parent taken fields properties (index :: path) clash

theorem clashAlong_iff {options : Options} {parent : String} {record : Record Base}
    {path : List Nat} {clash : Clash} :
    ClashAlong options parent record path clash ↔
      FieldsClash options parent (takenNames (options.keyTable? (record.fields.map Field.key)))
        record.fields (options.properties record.fields) path clash := by
  constructor
  · intro h
    cases h with
    | here h =>
        refine .here h.declared ?_
        rw [mem_takenNames, isSome_keyTable?]
        exact h.taken.symm
    | within found same declared inside => exact .within found same declared inside
  · intro h
    cases h with
    | here declared taken =>
        rw [mem_takenNames, isSome_keyTable?] at taken
        exact .here ⟨declared, taken.symm⟩
    | within found same declared inside => exact .within found same declared inside

section Step

variable {options : Options} {parent property : String} {taken properties : List String}
  {field : Field Base} {fields : List (Field Base)} {path : List Nat} {clash : Clash}

/-- A clash within the record that a base holds. -/
def BaseClash (options : Options) (name : String) (base : Base) (path : List Nat) (clash : Clash) :
    Prop := ∃ inner, base = .record inner ∧ ClashAlong options name inner path clash

theorem not_fieldsClash_nil : ¬ FieldsClash options parent taken [] properties path clash := by
  intro h
  cases h with
  | here declared => cases declared
  | within found => cases found

theorem not_fieldsClash_nil_right : ¬ FieldsClash options parent taken fields [] path clash := by
  intro h
  cases h with
  | here declared => simp at declared
  | within found same declared => simp at declared

theorem fieldsClash_ne_nil (h : FieldsClash options parent taken fields properties path clash) :
    ∃ index rest, path = index :: rest := by
  cases h with
  | here => exact ⟨_, _, rfl⟩
  | within => exact ⟨_, _, rfl⟩

/-- A clash at the first field is its own, with a name that was taken before, or within it. -/
theorem fieldsClash_zero :
    FieldsClash options parent taken (field :: fields) (property :: properties) (0 :: path) clash ↔
      (options.TakesTaken taken field property ∧ path = [] ∧
        clash = ⟨parent, options.fieldName field property⟩) ∨
      BaseClash options (options.fieldName field property) field.base path clash := by
  constructor
  · intro h
    cases h with
    | here declared before =>
        obtain ⟨nested, rfl⟩ := nestedName?_eq_some.mp (Option.some.inj declared)
        rcases before with before | ⟨earlier, lt, -⟩
        · exact .inl ⟨⟨nested, before⟩, rfl, rfl⟩
        · cases lt
    | within found same declared inside =>
        cases found
        obtain ⟨-, rfl⟩ := nestedName?_eq_some.mp (Option.some.inj declared)
        exact .inr ⟨_, same, inside⟩
  · rintro (⟨⟨nested, before⟩, rfl, rfl⟩ | ⟨inner, same, inside⟩)
    · exact .here (congrArg some (nestedName?_eq_some.mpr ⟨nested, rfl⟩)) (.inl before)
    · have nested : field.base.isNested = true := same ▸ rfl
      exact .within rfl same (congrArg some (nestedName?_eq_some.mpr ⟨nested, rfl⟩)) inside

theorem mem_takenAfter {name : String} :
    name ∈ options.takenAfter taken field property ↔
      options.nestedName? field property = some name ∨ name ∈ taken := by
  rw [Options.takenAfter, nestedName?_eq_some]
  split
  next h => rw [List.mem_cons, and_iff_right h, eq_comm]
  next h => exact ⟨.inr, fun either => either.resolve_left fun nested => h nested.1⟩

theorem exists_earlier_succ {names : List (Option String)} {first : Option String} {index : Nat}
    {name : String} :
    (∃ earlier < index + 1, (first :: names)[earlier]? = some (some name)) ↔
      first = some name ∨ ∃ earlier < index, names[earlier]? = some (some name) := by
  constructor
  · rintro ⟨earlier, lt, found⟩
    cases earlier with
    | zero => exact .inl (Option.some.inj found)
    | succ earlier => exact .inr ⟨earlier, Nat.lt_of_succ_lt_succ lt, found⟩
  · rintro (rfl | ⟨earlier, lt, found⟩)
    · exact ⟨0, Nat.zero_lt_succ index, rfl⟩
    · exact ⟨earlier + 1, Nat.succ_lt_succ lt, found⟩

theorem fieldsClash_succ {index : Nat} :
    FieldsClash options parent taken (field :: fields) (property :: properties) ((index + 1) :: path)
        clash ↔
      FieldsClash options parent (options.takenAfter taken field property) fields properties
        (index :: path) clash := by
  constructor
  · intro h
    cases h with
    | here declared before =>
        refine .here declared ?_
        rw [List.zipWith_cons_cons, exists_earlier_succ] at before
        rw [mem_takenAfter, or_comm (a := _ = _), or_assoc]
        exact before
    | within found same declared inside => exact .within found same declared inside
  · intro h
    cases h with
    | here declared before =>
        refine .here declared ?_
        rw [mem_takenAfter, or_comm (a := _ = _), or_assoc] at before
        rw [List.zipWith_cons_cons, exists_earlier_succ]
        exact before
    | within found same declared inside => exact .within found same declared inside

/-! What comes first: the name of a field, what is within it, what is behind it. -/

theorem isFirst_here (own : options.TakesTaken taken field property) :
    IsFirst (FieldsClash options parent taken (field :: fields) (property :: properties)) [0]
      ⟨parent, options.fieldName field property⟩ := by
  refine ⟨fieldsClash_zero.mpr (.inl ⟨own, rfl, rfl⟩), ?_⟩
  intro other otherClash h before
  obtain ⟨index, rest, rfl⟩ := fieldsClash_ne_nil h
  rcases List.cons_lt_cons_iff.mp before with lt | ⟨-, lt⟩
  · exact Nat.not_lt_zero index lt
  · exact List.not_lt_nil rest lt

theorem isFirst_within (own : ¬ options.TakesTaken taken field property)
    (first : IsFirst (BaseClash options (options.fieldName field property) field.base) path clash) :
    IsFirst (FieldsClash options parent taken (field :: fields) (property :: properties))
      (0 :: path) clash := by
  refine ⟨fieldsClash_zero.mpr (.inr first.1), ?_⟩
  intro other otherClash h before
  obtain ⟨index, rest, rfl⟩ := fieldsClash_ne_nil h
  rcases List.cons_lt_cons_iff.mp before with lt | ⟨rfl, lt⟩
  · exact Nat.not_lt_zero index lt
  · have inside := (fieldsClash_zero.mp h).resolve_left fun taken => own taken.1
    exact first.2 rest otherClash inside lt

theorem isFirst_behind
    (noneHere : ∀ path clash, ¬ FieldsClash options parent taken (field :: fields)
      (property :: properties) (0 :: path) clash)
    (first : IsFirst (FieldsClash options parent (options.takenAfter taken field property) fields
      properties) path clash) :
    ∃ path, IsFirst (FieldsClash options parent taken (field :: fields) (property :: properties))
      path clash := by
  obtain ⟨index, rest, rfl⟩ := fieldsClash_ne_nil first.1
  refine ⟨(index + 1) :: rest, fieldsClash_succ.mpr first.1, ?_⟩
  intro other otherClash h before
  obtain ⟨otherIndex, otherRest, rfl⟩ := fieldsClash_ne_nil h
  cases otherIndex with
  | zero => exact noneHere otherRest otherClash h
  | succ otherIndex =>
      refine first.2 _ otherClash (fieldsClash_succ.mp h) (List.cons_lt_cons_iff.mpr ?_)
      exact (List.cons_lt_cons_iff.mp before).imp Nat.lt_of_succ_lt_succ
        fun ⟨same, lt⟩ => ⟨Nat.succ.inj same, lt⟩

end Step

/-! Declaring tells of the first clash. -/

theorem declareBase_reports {options : Options} {base : Base}
    (ih : ∀ inner, base = .record inner → ∀ name,
      Reports (ClashAlong options name inner) (declareRecord options name inner)) (name : String) :
    Reports (BaseClash options name base) (declareBase options name base) := by
  cases base with
  | record inner =>
      have told := ih inner rfl name
      rw [declareBase_record]
      cases h : declareRecord options name inner with
      | ok declaration =>
          rw [h] at told
          rintro path clash ⟨_, ⟨⟩, inside⟩
          exact told path clash inside
      | error clash =>
          rw [h] at told
          obtain ⟨path, inside, first⟩ := told
          refine ⟨path, ⟨inner, rfl, inside⟩, ?_⟩
          rintro other otherClash ⟨_, ⟨⟩, inside⟩
          exact first other otherClash inside
  | _ =>
      rintro path clash ⟨_, same, _⟩
      cases same

theorem declareFields_reports {options : Options} {fields : List (Field Base)}
    (ih : ∀ field ∈ fields, ∀ inner, field.base = .record inner → ∀ name,
      Reports (ClashAlong options name inner) (declareRecord options name inner))
    (parent : String) (taken properties : List String) :
    Reports (FieldsClash options parent taken fields properties)
      (declareFields options parent taken fields properties) := by
  induction fields generalizing taken properties with
  | nil => exact fun path clash => not_fieldsClash_nil
  | cons field fields tail =>
      cases properties with
      | nil => exact fun path clash => not_fieldsClash_nil_right
      | cons property properties =>
          -- in the order of the text: the name of the field, what is within it, what is behind it
          by_cases own : options.TakesTaken taken field property
          · rw [declareFields_cons_of_takesTaken own]
            exact ⟨[0], isFirst_here own⟩
          · rw [declareFields_cons own]
            have within := declareBase_reports (fun inner => ih field (.head _) inner)
              (options.fieldName field property)
            cases hb : declareBase options (options.fieldName field property) field.base with
            | error clash =>
                rw [hb] at within
                obtain ⟨path, first⟩ := within
                exact ⟨0 :: path, isFirst_within own first⟩
            | ok nested =>
                rw [hb] at within
                have noneHere : ∀ path clash, ¬ FieldsClash options parent taken (field :: fields)
                    (property :: properties) (0 :: path) clash := fun path clash h =>
                  (fieldsClash_zero.mp h).elim (fun taken => own taken.1) (within path clash)
                have behind := tail (fun other member => ih other (.tail _ member))
                  (options.takenAfter taken field property) properties
                cases hf : declareFields options parent (options.takenAfter taken field property)
                    fields properties with
                | error clash =>
                    rw [hf] at behind
                    obtain ⟨path, first⟩ := behind
                    exact isFirst_behind noneHere first
                | ok rest =>
                    rw [hf] at behind
                    intro path clash h
                    obtain ⟨index, rest, rfl⟩ := fieldsClash_ne_nil h
                    cases index with
                    | zero => exact noneHere rest clash h
                    | succ index => exact behind _ clash (fieldsClash_succ.mp h)

theorem declareRecord_reports (options : Options) (name : String) (record : Record Base) :
    Reports (ClashAlong options name record) (declareRecord options name record) := by
  induction record using Record.induction generalizing name with
  | step record ih =>
      have told := declareFields_reports (fun field member inner same name =>
        ih field member inner same name) name
        (takenNames (options.keyTable? (record.fields.map Field.key)))
        (options.properties record.fields)
      rw [declareRecord_eq]
      cases h : declareFields options name
          (takenNames (options.keyTable? (record.fields.map Field.key))) record.fields
          (options.properties record.fields) with
      | ok properties =>
          rw [h] at told
          exact fun path clash inside => told path clash (clashAlong_iff.mp inside)
      | error clash =>
          rw [h] at told
          obtain ⟨path, inside, first⟩ := told
          exact ⟨path, clashAlong_iff.mpr inside, fun other otherClash h =>
            first other otherClash (clashAlong_iff.mp h)⟩

theorem ClashAlong.unique {options : Options} {parent : String} {record : Record Base}
    {path : List Nat} {clash other : Clash} (first : ClashAlong options parent record path clash)
    (second : ClashAlong options parent record path other) : clash = other := by
  induction first with
  | here h =>
      cases second with
      | here h' =>
          cases Option.some.inj (Option.some.inj (h.declared.symm.trans h'.declared))
          rfl
      | within _ _ _ inside => cases inside
  | within found same declared inside ih =>
      cases second with
      | here => cases inside
      | within found' same' declared' inside' =>
          cases Option.some.inj (found.symm.trans found')
          cases Base.record.inj (same.symm.trans same')
          cases Option.some.inj (Option.some.inj (declared.symm.trans declared'))
          exact ih inside'

theorem IsFirst.unique {options : Options} {parent : String} {record : Record Base}
    {path otherPath : List Nat} {clash other : Clash}
    (first : IsFirst (ClashAlong options parent record) path clash)
    (second : IsFirst (ClashAlong options parent record) otherPath other) : clash = other := by
  have same : path = otherPath :=
    List.le_antisymm (List.not_lt.mp (first.2 otherPath other second.1))
      (List.not_lt.mp (second.2 path clash first.1))
  subst same
  exact first.1.unique second.1

theorem declareRecord_eq_error_iff {options : Options} {name : String} {record : Record Base}
    {clash : Clash} : declareRecord options name record = .error clash ↔
      ∃ path, IsFirst (ClashAlong options name record) path clash := by
  have told := declareRecord_reports options name record
  cases h : declareRecord options name record with
  | ok declaration =>
      rw [h] at told
      exact ⟨fun error => (nomatch error), fun ⟨path, first⟩ => absurd first.1 (told path clash)⟩
  | error other =>
      rw [h] at told
      obtain ⟨otherPath, otherFirst⟩ := told
      constructor
      · intro same
        cases same
        exact ⟨otherPath, otherFirst⟩
      · rintro ⟨path, first⟩
        rw [otherFirst.unique first]

theorem declareRecord_eq_ok_iff {options : Options} {name : String} {record : Record Base} :
    declareRecord options name record = .ok (draftRecord options name record) ↔
      ∀ path clash, ¬ ClashAlong options name record path clash := by
  have told := declareRecord_reports options name record
  cases h : declareRecord options name record with
  | ok declaration =>
      rw [h] at told
      rw [declareRecord_eq_draft h]
      exact iff_of_true rfl told
  | error clash =>
      rw [h] at told
      obtain ⟨path, inside, -⟩ := told
      exact iff_of_false (fun ok => nomatch ok) fun none => none path clash inside

/-- Options that are accepted fail exactly on the records in which names clash, and what is told is
the first clash. An enumeration is always declared. -/
theorem emit_eq_error_iff_first_clash {options : Options} (valid : options.refusal? = none)
    (model : Model) :
    (∀ failure, emit model options = .error failure ↔ ∃ record path clash,
      model = .record record ∧ failure = .clash clash ∧
        IsFirst (ClashAlong options options.rootName (options.arranged record)) path clash) ∧
    ((∃ failure, emit model options = .error failure) ↔ ∃ record path clash,
      model = .record record ∧
        ClashAlong options options.rootName (options.arranged record) path clash) := by
  have fails : ∀ failure, emit model options = .error failure ↔ ∃ record path clash,
      model = .record record ∧ failure = .clash clash ∧
        IsFirst (ClashAlong options options.rootName (options.arranged record)) path clash := by
    intro failure
    rw [emit_eq_error valid]
    cases model with
    | enumeration enumeration =>
        exact ⟨fun ⟨_, _, error⟩ => (nomatch error), fun ⟨_, _, _, same, _⟩ => (nomatch same)⟩
    | record record =>
        constructor
        · rintro ⟨clash, same, error⟩
          obtain ⟨path, first⟩ := declareRecord_eq_error_iff.mp error
          exact ⟨record, path, clash, rfl, same, first⟩
        · rintro ⟨_, path, clash, ⟨⟩, same, first⟩
          exact ⟨clash, same, declareRecord_eq_error_iff.mpr ⟨path, first⟩⟩
  refine ⟨fails, ?_⟩
  constructor
  · rintro ⟨failure, error⟩
    obtain ⟨record, path, clash, same, -, first⟩ := (fails failure).mp error
    exact ⟨record, path, clash, same, first.1⟩
  · rintro ⟨record, path, clash, rfl, inside⟩
    have told := declareRecord_reports options options.rootName (options.arranged record)
    cases h : declareRecord options options.rootName (options.arranged record) with
    | ok declaration =>
        rw [h] at told
        exact absurd inside (told path clash)
    | error other => exact ⟨.clash other, (emit_eq_error valid).mpr ⟨other, rfl, h⟩⟩

/-- A type that is told from its own property by an underscore meets the type of another key. -/
theorem first_clash_of_underscore :
    Options.default.refusal? = none ∧ ∃ path, IsFirst (ClashAlong Options.default "Model"
      ⟨"Model", [⟨"_a", .record ⟨"", []⟩, false, false⟩, ⟨"A", .choice ["b"], false, false⟩]⟩)
      path ⟨"Model", "_A"⟩ := by
  have valid : Options.default.refusal? = none := by decide
  refine ⟨valid, ?_⟩
  obtain ⟨_, path, _, ⟨⟩, ⟨⟩, first⟩ := ((emit_eq_error_iff_first_clash valid (.record ⟨"Model",
    [⟨"_a", .record ⟨"", []⟩, false, false⟩, ⟨"A", .choice ["b"], false, false⟩]⟩)).1
      (.clash ⟨"Model", "_A"⟩)).mp rfl
  exact ⟨path, first⟩

end SwiftModel.Emission
