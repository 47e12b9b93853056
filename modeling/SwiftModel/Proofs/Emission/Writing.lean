/- Writing line by line. A record is put in order when it is written, its lines go out as its fields are met,
and a clash stops the writing in the middle of them; what is out by then is a beginning of the draft. -/
import SwiftModel.Proofs.Emission.Arranged

namespace SwiftModel.Emission
open SwiftModel.Identifier

/-- Lines that go out one after the other. A clash ends the writing, and takes no line back. -/
abbrev Writing := ExceptT Clash (StateM (List Line)) Unit

def write (lines : List Line) : Writing := modify (· ++ lines)

def propertyLine (escaper : Escaper) (level : Nat) (name type : String) : Line :=
  ⟨level, .property (escaper.escape name ++ ": " ++ type)⟩

mutual

def writeBase (options : Options) (level : Nat) (name : String) : Base → Writing
  | .record inner => writeRecord options level name inner
  | .choice values =>
    write (declarationLines options.escaper level (declareChoice options name values))
  | _ => pure ()
termination_by base => sizeOf base

/-- Writes a record with its own fields in order. What they hold is put in order when it is written. -/
def writeRecord (options : Options) (level : Nat) (name : String) : Record Base → Writing
  | ⟨_, fields⟩ => do
    let ordered := options.inOrder fields
    let keys := ordered.map Field.key
    let keyTable := options.keyTable? keys
    write [⟨level, .recordHeader name⟩]
    writeFields options (level + 1) name (takenNames keyTable) ordered (options.identifiers keys)
    write (keyTableLines options.escaper (level + 1) keyTable ++ [closingLine level])
termination_by record => sizeOf record
decreasing_by
  rw [(perm_inOrder options _).sizeOf_eq_sizeOf]
  decreasing_tactic

/-- Writes fields under their identifiers; the line of a field is out before its type is looked at. -/
def writeFields (options : Options) (level : Nat) (parent : String) (taken : List String) :
    List (Field Base) → List String → Writing
  | [], _ | _, [] => pure ()
  | ⟨_, base, isArray, isOptional⟩ :: fields, property :: properties => do
    let name := options.baseName property isArray base
    write [propertyLine options.escaper level property (writtenType isArray isOptional name)]
    if base.isNested && taken.contains name then throw ⟨parent, name⟩
    writeBase options level name base
    writeFields options level parent (if base.isNested then name :: taken else taken) fields properties
termination_by fields => sizeOf fields

end

def writeModel (options : Options) : Model → Writing
  | .record record => writeRecord options 0 options.rootName record
  | .enumeration enumeration =>
    write (declarationLines options.escaper 0 (declareChoice options options.rootName enumeration.values))

/-- The result of a writing, and all lines that are out at its end, behind those that were before. -/
def Writing.runOn (writing : Writing) (before : List Line) : Except Clash Unit × List Line :=
  writing.run.run before

/-- A writing ends so, and lets out these lines; a beginning of them, if it ends in a clash. -/
def Writing.Yields (writing : Writing) (lines : List Line) (result : Except Clash Unit) : Prop :=
  ∀ before, ∃ written, written <+: lines ∧ (result = .ok () → written = lines) ∧
    writing.runOn before = (result, before ++ written)

namespace Writing

variable {writing next : Writing} {before after lines rest : List Line} {clash : Clash}
  {result last : Except Clash Unit}

theorem runOn_bind_of_ok (h : writing.runOn before = (.ok (), after)) :
    runOn (writing >>= fun _ => next) before = next.runOn after := by
  change ExceptT.bindCont (fun _ => next) (writing.runOn before).1 (writing.runOn before).2 = _
  rw [h]
  rfl

theorem runOn_bind_of_error (h : writing.runOn before = (.error clash, after)) :
    runOn (writing >>= fun _ => next) before = (.error clash, after) := by
  change ExceptT.bindCont (fun _ => next) (writing.runOn before).1 (writing.runOn before).2 = _
  rw [h]
  rfl

theorem yields_pure : Yields (pure ()) [] (.ok ()) := fun before =>
  ⟨[], List.prefix_rfl, fun _ => rfl, by rw [List.append_nil]; rfl⟩

theorem yields_write (lines : List Line) : Yields (write lines) lines (.ok ()) := fun _ =>
  ⟨lines, List.prefix_rfl, fun _ => rfl, rfl⟩

theorem yields_throw (clash : Clash) (lines : List Line) :
    Yields (throw clash) lines (.error clash) := fun before =>
  ⟨[], List.nil_prefix, fun ok => (nomatch ok), by rw [List.append_nil]; rfl⟩

/-- One writing behind another: what the second would let out is missing if the first ends in a clash. -/
theorem Yields.bind (h : writing.Yields lines result) (h' : next.Yields rest last) :
    Yields (writing >>= fun _ => next) (lines ++ rest) (result.bind fun _ => last) := by
  intro before
  obtain ⟨written, start, whole, ran⟩ := h before
  cases result with
  | error clash =>
      exact ⟨written, start.trans (List.prefix_append ..), fun ok => (nomatch ok),
        runOn_bind_of_error ran⟩
  | ok =>
      obtain rfl := whole rfl
      obtain ⟨more, start', whole', ran'⟩ := h' (before ++ written)
      refine ⟨written ++ more, (List.prefix_append_right_inj written).mpr start', ?_, ?_⟩
      · intro ok
        rw [whole' ok]
      · rw [runOn_bind_of_ok ran, ran', List.append_assoc]
        rfl

end Writing

/-- The lines of the declaration that a field needs. -/
def nestedLines (escaper : Escaper) (level : Nat) : Option Declaration → List Line
  | none => []
  | some declaration => declarationLines escaper level declaration

theorem propertyLines_cons (escaper : Escaper) (level : Nat) (property : Property Declaration)
    (properties : List (Property Declaration)) :
    propertyLines escaper level (property :: properties) =
      [propertyLine escaper level property.name property.type] ++
        (nestedLines escaper level property.nested ++ propertyLines escaper level properties) := by
  obtain ⟨name, type, nested⟩ := property
  cases nested <;> rfl

/-- A result, without what it holds. -/
def verdict {α : Type} (result : Except Clash α) : Except Clash Unit := result.map fun _ => ()

section Step

variable {options : Options} {level : Nat} {parent property : String} {taken properties : List String}
  {field : Field Base} {fields : List (Field Base)}

theorem writeFields_cons_of_takesTaken (h : options.TakesTaken taken field property) :
    writeFields options level parent taken (field :: fields) (property :: properties) =
      write [propertyLine options.escaper level property
        (writtenType field.isArray field.isOptional (options.fieldName field property))] >>= fun _ =>
          throw ⟨parent, options.fieldName field property⟩ := by
  have taken' : (field.base.isNested && taken.contains (options.fieldName field property)) = true := by
    rw [h.1, Bool.true_and, List.contains_iff_mem]
    exact h.2
  rw [writeFields]
  congr 1
  funext _
  exact if_pos taken'

theorem writeFields_cons (h : ¬ options.TakesTaken taken field property) :
    writeFields options level parent taken (field :: fields) (property :: properties) =
      write [propertyLine options.escaper level property
        (writtenType field.isArray field.isOptional (options.fieldName field property))] >>= fun _ =>
          writeBase options level (options.fieldName field property) field.base >>= fun _ =>
            writeFields options level parent (options.takenAfter taken field property) fields
              properties := by
  have free : ¬ (field.base.isNested && taken.contains (options.fieldName field property)) = true := by
    rw [Bool.and_eq_true, List.contains_iff_mem]
    exact h
  rw [writeFields]
  congr 1
  funext _
  exact if_neg free

theorem writeRecord_eq (options : Options) (level : Nat) (name : String) (record : Record Base) :
    writeRecord options level name record =
      write [⟨level, .recordHeader name⟩] >>= fun _ =>
        writeFields options (level + 1) name
          (takenNames (options.keyTable? ((options.inOrder record.fields).map Field.key)))
          (options.inOrder record.fields) (options.properties (options.inOrder record.fields)) >>= fun _ =>
            write (keyTableLines options.escaper (level + 1)
              (options.keyTable? ((options.inOrder record.fields).map Field.key)) ++ [closingLine level]) := by
  rw [writeRecord]
  rfl

end Step

/-! What is written, each level put in order on its way, is the draft of what is in order all through. -/

section Yields

variable {options : Options}

/-- What goes out for a record is its draft, and the writing ends in a clash exactly if the declaration does. -/
def WritesDraft (options : Options) (record : Record Base) : Prop := ∀ level name,
  (writeRecord options level name record).Yields
    (declarationLines options.escaper level (draftRecord options name (options.arranged record)))
    (verdict (declareRecord options name (options.arranged record)))

/-- A base writes its draft, if the record in it writes its own. -/
theorem yields_writeBase {base : Base} (ih : ∀ inner, base = .record inner → WritesDraft options inner)
    (level : Nat) (name : String) :
    (writeBase options level name base).Yields
      (nestedLines options.escaper level (draftBase options name (options.arrangedBase base)))
      (verdict (declareBase options name (options.arrangedBase base))) := by
  by_cases record : ∃ inner, base = .record inner
  · obtain ⟨inner, rfl⟩ := record
    have written := ih inner rfl level name
    rw [writeBase, arrangedBase_record, declareBase_record]
    cases declared : declareRecord options name (options.arranged inner) <;>
    · rw [declared] at written
      exact written
  · have scalar : ∀ inner, base ≠ .record inner := fun inner same => record ⟨inner, same⟩
    rw [arrangedBase_of_ne options scalar]
    cases base with
    | record inner => exact absurd rfl (scalar inner)
    | choice values =>
        unfold writeBase
        exact Writing.yields_write _
    | _ =>
        unfold writeBase
        exact Writing.yields_pure

theorem draftField_arrangedField (field : Field Base) (property : String) :
    draftField options (options.arrangedField field) property =
      ⟨property, writtenType field.isArray field.isOptional (options.fieldName field property),
        draftBase options (options.fieldName field property) (options.arrangedBase field.base)⟩ := by
  have name : options.baseName property (options.arrangedField field).isArray
      (options.arrangedField field).base = options.fieldName field property :=
    (namedAlike_arrangedField options field).fieldName options property
  rw [draftField, name]
  rfl

theorem yields_writeFields {fields : List (Field Base)}
    (ih : ∀ field ∈ fields, ∀ inner, field.base = .record inner → WritesDraft options inner)
    (level : Nat) (parent : String) (taken properties : List String) :
    (writeFields options level parent taken fields properties).Yields
      (propertyLines options.escaper level
        (List.zipWith (draftField options) (fields.map options.arrangedField) properties))
      (verdict (declareFields options parent taken (fields.map options.arrangedField) properties)) := by
  induction fields generalizing taken properties with
  | nil =>
      unfold writeFields
      cases properties <;> exact Writing.yields_pure
  | cons field fields tail =>
      cases properties with
      | nil =>
          unfold writeFields
          exact Writing.yields_pure
      | cons property properties =>
          have alike := namedAlike_arrangedField options field
          rw [List.map_cons, List.zipWith_cons_cons, propertyLines_cons, draftField_arrangedField]
          by_cases clashes : options.TakesTaken taken field property
          · rw [writeFields_cons_of_takesTaken clashes,
              declareFields_cons_of_takesTaken ((alike.takesTaken options taken property).mpr clashes),
              ← alike.fieldName options property]
            exact (Writing.yields_write _).bind (Writing.yields_throw _ _)
          · have own := yields_writeBase (ih field (.head _)) level (options.fieldName field property)
            have behind := tail (fun other member => ih other (.tail _ member))
              (options.takenAfter taken field property) properties
            rw [writeFields_cons clashes,
              declareFields_cons (mt (alike.takesTaken options taken property).mp clashes),
              alike.takenAfter options taken property, alike.fieldName options property,
              arrangedField_base]
            have all := (Writing.yields_write [propertyLine options.escaper level property
              (writtenType field.isArray field.isOptional (options.fieldName field property))]).bind
              (own.bind behind)
            revert all
            cases declareBase options (options.fieldName field property) (options.arrangedBase field.base) with
            | error clash => exact id
            | ok nested =>
                cases declareFields options parent (options.takenAfter taken field property)
                  (fields.map options.arrangedField) properties <;> exact id

theorem writesDraft (options : Options) (record : Record Base) : WritesDraft options record := by
  induction record using Record.induction with
  | step record ih =>
      intro level name
      have properties : options.properties (options.arranged record).fields =
          options.properties (options.inOrder record.fields) := by
        rw [Options.properties, keys_arranged, Options.properties]
      have inside : ∀ field ∈ options.inOrder record.fields, ∀ inner, field.base = .record inner →
          WritesDraft options inner :=
        fun field member => ih field ((perm_inOrder options record.fields).mem_iff.mp member)
      have fields := yields_writeFields inside (level + 1) name
        (takenNames (options.keyTable? ((options.inOrder record.fields).map Field.key)))
        (options.properties (options.inOrder record.fields))
      have all := (Writing.yields_write [⟨level, .recordHeader name⟩]).bind (fields.bind
        (Writing.yields_write (keyTableLines options.escaper (level + 1)
          (options.keyTable? ((options.inOrder record.fields).map Field.key)) ++ [closingLine level])))
      rw [writeRecord_eq, draftRecord_eq, declareRecord_eq, declarationLines, Options.drafts, keys_arranged,
        properties, fields_arranged]
      simp only [List.cons_append, List.nil_append, List.append_assoc] at all ⊢
      revert all
      cases declareFields options name
        (takenNames (options.keyTable? ((options.inOrder record.fields).map Field.key)))
        ((options.inOrder record.fields).map options.arrangedField)
        (options.properties (options.inOrder record.fields)) <;> exact id

end Yields

theorem yields_writeModel (options : Options) (model : Model) :
    (writeModel options model).Yields (declarationLines options.escaper 0 (draft options model))
      (verdict (declare options model)) := by
  cases model with
  | record record => exact writesDraft options record 0 options.rootName
  | enumeration enumeration => exact Writing.yields_write _

end SwiftModel.Emission
