/- The draft of a record: the declaration it has when no two names in it clash. What is declared is
always the draft, so that whatever is said of drafts holds of the emitted text. -/
import SwiftModel.Emission.Emitter
import SwiftModel.Proofs.Failure.Sequence
import SwiftModel.Proofs.Identifier.Distinct
import SwiftModel.Proofs.Model.Induction

namespace SwiftModel.Emission
open SwiftModel.Identifier

mutual

/-- The declaration beside a field of a base, under a name. -/
def draftBase (options : Options) (name : String) : Base → Option Declaration
  | .record inner => some (draftRecord options name inner)
  | .choice values => some (declareChoice options name values)
  | _ => none
termination_by structural base => base

def draftRecord (options : Options) (name : String) : Record Base → Declaration
  | ⟨_, fields⟩ =>
    let keys := fields.map Field.key
    .record name (draftFields options fields (options.identifiers keys)) (options.keyTable? keys)
termination_by structural record => record

def draftFields (options : Options) :
    List (Field Base) → List String → List (Property Declaration)
  | [], _ | _, [] => []
  | ⟨_, base, isArray, isOptional⟩ :: fields, property :: properties =>
    let name := options.baseName property isArray base
    ⟨property, writtenType isArray isOptional name, draftBase options name base⟩
      :: draftFields options fields properties
termination_by structural fields => fields

end

/-- The property for a field under an identifier. -/
def draftField (options : Options) (field : Field Base) (property : String) : Property Declaration :=
  let name := options.baseName property field.isArray field.base
  ⟨property, writtenType field.isArray field.isOptional name, draftBase options name field.base⟩

def Options.properties (options : Options) (fields : List (Field Base)) : List String :=
  options.identifiers (fields.map Field.key)

/-- The properties that the fields of a record are declared as. -/
def Options.drafts (options : Options) (fields : List (Field Base)) : List (Property Declaration) :=
  List.zipWith (draftField options) fields (options.properties fields)

theorem draftFields_eq_zipWith (options : Options) (fields : List (Field Base))
    (properties : List String) :
    draftFields options fields properties = List.zipWith (draftField options) fields properties := by
  induction fields generalizing properties with
  | nil => cases properties <;> rfl
  | cons field fields ih =>
      cases properties with
      | nil => rfl
      | cons property properties => exact congrArg (List.cons _) (ih properties)

theorem draftRecord_eq (options : Options) (name : String) (record : Record Base) :
    draftRecord options name record =
      .record name (options.drafts record.fields)
        (options.keyTable? (record.fields.map Field.key)) := by
  rw [draftRecord, draftFields_eq_zipWith]
  rfl

@[simp] theorem length_identifiers (options : Options) (keys : List String) :
    (options.identifiers keys).length = keys.length := by
  rw [Options.identifiers, length_distinct, List.length_map]

@[simp] theorem length_properties (options : Options) (fields : List (Field Base)) :
    (options.properties fields).length = fields.length := by
  rw [Options.properties, length_identifiers, List.length_map]

theorem nodup_identifiers (options : Options) (keys : List String) :
    (options.identifiers keys).Nodup := nodup_distinct _

/-! Fields and their drafts stand at the same indices. -/

section Drafts

variable {options : Options} {fields : List (Field Base)} {field : Field Base} {index : Nat}

theorem getElem?_drafts {property : Property Declaration} :
    (options.drafts fields)[index]? = some property ↔
      ∃ field name, fields[index]? = some field ∧ (options.properties fields)[index]? = some name ∧
        draftField options field name = property := List.getElem?_zipWith_eq_some

theorem exists_field {property : Property Declaration} (h : property ∈ options.drafts fields) :
    ∃ field ∈ fields, ∃ name ∈ options.properties fields,
      draftField options field name = property := by
  obtain ⟨index, found⟩ := List.getElem?_of_mem h
  obtain ⟨field, name, hf, hp, same⟩ := getElem?_drafts.mp found
  exact ⟨field, List.mem_of_getElem? hf, name, List.mem_of_getElem? hp, same⟩

theorem exists_property (options : Options) (h : fields[index]? = some field) :
    ∃ property, (options.properties fields)[index]? = some property := by
  have bound : index < (options.properties fields).length := by
    rw [length_properties]
    exact (List.getElem?_eq_some_iff.mp h).1
  exact ⟨_, List.getElem?_eq_getElem bound⟩

theorem exists_draft (options : Options) (member : field ∈ fields) :
    ∃ (index : Nat) (property : String),
      (options.drafts fields)[index]? = some (draftField options field property) := by
  obtain ⟨index, hf⟩ := List.getElem?_of_mem member
  obtain ⟨property, hp⟩ := exists_property options hf
  exact ⟨index, property, getElem?_drafts.mpr ⟨field, property, hf, hp, rfl⟩⟩

end Drafts

/-! One field is declared at a time: what can stop it, and what comes of it. -/

/-- The name under which the base of a field is declared or known. -/
def Options.fieldName (options : Options) (field : Field Base) (property : String) : String :=
  options.baseName property field.isArray field.base

theorem fieldName_of_scalarName? (options : Options) {field : Field Base} {name : String}
    (h : scalarName? field.base = some name) (property : String) :
    options.fieldName field property = name := by
  rw [Options.fieldName, Options.baseName, h]
  rfl

/-- A field whose type would take a name that is taken. -/
def Options.TakesTaken (options : Options) (taken : List String) (field : Field Base)
    (property : String) : Prop :=
  field.base.isNested = true ∧ options.fieldName field property ∈ taken

/-- The names that are taken once a field is declared. -/
def Options.takenAfter (options : Options) (taken : List String) (field : Field Base)
    (property : String) : List String :=
  if field.base.isNested then options.fieldName field property :: taken else taken

/-- Fields whose types go by the same name under every identifier, and are declared both or neither. -/
structure NamedAlike (field other : Field Base) : Prop where
  isArray : field.isArray = other.isArray
  scalarName : scalarName? field.base = scalarName? other.base
  isNested : field.base.isNested = other.base.isNested

namespace NamedAlike

variable {field other : Field Base} (alike : NamedAlike field other) (options : Options)
  (taken : List String) (property : String)
include alike

theorem fieldName : options.fieldName field property = options.fieldName other property := by
  rw [Options.fieldName, Options.fieldName, Options.baseName, Options.baseName, alike.scalarName, alike.isArray]

theorem takesTaken : options.TakesTaken taken field property ↔ options.TakesTaken taken other property := by
  rw [Options.TakesTaken, Options.TakesTaken, alike.fieldName, alike.isNested]

theorem takenAfter : options.takenAfter taken field property = options.takenAfter taken other property := by
  rw [Options.takenAfter, Options.takenAfter, alike.fieldName, alike.isNested]

end NamedAlike

section Step

variable {options : Options} {parent property : String} {taken properties : List String}
  {field : Field Base} {fields : List (Field Base)}

theorem declareFields_cons_of_takesTaken (h : options.TakesTaken taken field property) :
    declareFields options parent taken (field :: fields) (property :: properties) =
      .error ⟨parent, options.fieldName field property⟩ := by
  have taken' : (field.base.isNested && taken.contains (options.fieldName field property)) = true := by
    rw [h.1, Bool.true_and, List.contains_iff_mem]
    exact h.2
  rw [declareFields]
  exact if_pos taken'

theorem declareFields_cons (h : ¬ options.TakesTaken taken field property) :
    declareFields options parent taken (field :: fields) (property :: properties) =
      (declareBase options (options.fieldName field property) field.base).bind fun nested =>
        (declareFields options parent (options.takenAfter taken field property) fields
          properties).bind fun rest =>
            .ok (⟨property, writtenType field.isArray field.isOptional
              (options.fieldName field property), nested⟩ :: rest) := by
  have free : ¬ (field.base.isNested && taken.contains (options.fieldName field property)) = true := by
    rw [Bool.and_eq_true, List.contains_iff_mem]
    exact h
  rw [declareFields]
  exact if_neg free

theorem declareFields_cons_eq_ok {declared : List (Property Declaration)} :
    declareFields options parent taken (field :: fields) (property :: properties) = .ok declared ↔
      ¬ options.TakesTaken taken field property ∧ ∃ nested rest,
        declareBase options (options.fieldName field property) field.base = .ok nested ∧
        declareFields options parent (options.takenAfter taken field property) fields properties
          = .ok rest ∧
        declared = ⟨property, writtenType field.isArray field.isOptional
          (options.fieldName field property), nested⟩ :: rest := by
  by_cases h : options.TakesTaken taken field property
  · rw [declareFields_cons_of_takesTaken h]
    exact ⟨fun error => (nomatch error), fun ⟨free, _⟩ => absurd h free⟩
  · rw [declareFields_cons h]
    simp only [bind_eq_ok, Except.ok.injEq]
    constructor
    · rintro ⟨nested, hn, rest, hr, rfl⟩
      exact ⟨h, nested, rest, hn, hr, rfl⟩
    · rintro ⟨-, nested, rest, hn, hr, rfl⟩
      exact ⟨nested, hn, rest, hr, rfl⟩

end Step

theorem declareBase_record (options : Options) (name : String) (inner : Record Base) :
    declareBase options name (.record inner) =
      (declareRecord options name inner).bind fun declaration => .ok (some declaration) := rfl

theorem declareRecord_eq (options : Options) (name : String) (record : Record Base) :
    declareRecord options name record =
      (declareFields options name
        (takenNames (options.keyTable? (record.fields.map Field.key))) record.fields
          (options.properties record.fields)).bind fun properties =>
            .ok (.record name properties (options.keyTable? (record.fields.map Field.key))) := by
  rw [declareRecord]
  rfl

theorem declareFields_eq_draft {options : Options} {fields : List (Field Base)}
    (ih : ∀ field ∈ fields, ∀ inner, field.base = .record inner → ∀ name declaration,
      declareRecord options name inner = .ok declaration →
        declaration = draftRecord options name inner)
    {parent : String} {taken properties : List String} {declared : List (Property Declaration)}
    (h : declareFields options parent taken fields properties = .ok declared) :
    declared = List.zipWith (draftField options) fields properties := by
  induction fields generalizing taken properties declared with
  | nil =>
      cases h
      rfl
  | cons field fields tail =>
      cases properties with
      | nil =>
          cases h
          rfl
      | cons property properties =>
          obtain ⟨-, nested, rest, hn, hr, rfl⟩ := declareFields_cons_eq_ok.mp h
          -- names that are taken decide only whether a field is declared, not as what
          rw [List.zipWith_cons_cons, ← tail (fun other member => ih other (.tail _ member)) hr]
          congr 1
          rw [draftField]
          congr 1
          obtain ⟨key, base, isArray, isOptional⟩ := field
          cases base with
          | record inner =>
              obtain ⟨declaration, hd, same⟩ := bind_eq_ok.mp (declareBase_record .. ▸ hn)
              cases same
              rw [ih _ (.head _) inner rfl _ _ hd]
              rfl
          | _ =>
              cases hn
              rfl

theorem declareRecord_eq_draft {options : Options} {name : String} {record : Record Base}
    {declaration : Declaration} (h : declareRecord options name record = .ok declaration) :
    declaration = draftRecord options name record := by
  induction record using Record.induction generalizing name declaration with
  | step record ih =>
      rw [declareRecord_eq] at h
      obtain ⟨properties, hp, hd⟩ := bind_eq_ok.mp h
      cases hd
      rw [draftRecord_eq, declareFields_eq_draft (fun field member inner same name declaration =>
        ih field member inner same) hp]
      rfl

/-- The record with the fields of every record in it in the order in which they are written. -/
def Options.arranged (options : Options) (record : Record Base) : Record Base :=
  if options.sortedFields then sortRecord record else record

def draft (options : Options) : Model → Declaration
  | .record record => draftRecord options options.rootName (options.arranged record)
  | .enumeration enumeration => declareChoice options options.rootName enumeration.values

theorem declare_eq_draft {options : Options} {model : Model} {declaration : Declaration}
    (h : declare options model = .ok declaration) : declaration = draft options model := by
  cases model with
  | record record => exact declareRecord_eq_draft h
  | enumeration enumeration =>
      cases h
      rfl

def Options.text (options : Options) (declaration : Declaration) : String :=
  options.layout.text (declarationLines options.escaper 0 declaration)

/-- Options that are accepted fail on no model but by a clash. -/
theorem emit_eq {options : Options} (valid : options.refusal? = none) (model : Model) :
    emit model options = match declare options model with
      | .ok declaration => .ok (options.text declaration)
      | .error clash => .error (.clash clash) := by
  rw [emit, Emitter.ofOptions?, valid]
  simp only [Emitter.emit, modelText, modelLines]
  cases declare options model with
  | error clash => rfl
  | ok declaration => exact congrArg Except.ok (String.empty_append)

theorem emit_eq_error {options : Options} (valid : options.refusal? = none) {model : Model}
    {failure : Failure} : emit model options = .error failure ↔
      ∃ clash, failure = .clash clash ∧ declare options model = .error clash := by
  rw [emit_eq valid]
  cases h : declare options model with
  | error clash =>
      constructor
      · exact fun same => ⟨clash, (Except.error.inj same).symm, rfl⟩
      · rintro ⟨_, rfl, ⟨⟩⟩
        rfl
  | ok declaration => exact ⟨fun same => (nomatch same), fun ⟨_, _, same⟩ => (nomatch same)⟩

theorem emit_eq_ok {options : Options} (valid : options.refusal? = none) {model : Model}
    {text : String} : emit model options = .ok text ↔
      declare options model = .ok (draft options model) ∧
        text = options.text (draft options model) := by
  rw [emit_eq valid]
  cases h : declare options model with
  | error clash => exact ⟨fun same => (nomatch same), fun ⟨same, _⟩ => (nomatch same)⟩
  | ok declaration =>
      cases declare_eq_draft h
      exact ⟨fun same => ⟨rfl, (Except.ok.inj same).symm⟩, fun ⟨_, same⟩ => congrArg _ same.symm⟩

end SwiftModel.Emission
