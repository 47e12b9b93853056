/- Asking for every key table adds the redundant ones to the text and nothing else; it can only fail for
the name that a key table takes. -/
import SwiftModel.Proofs.Emission.Clash
import SwiftModel.Proofs.Emission.Writing

namespace SwiftModel.Emission
open SwiftModel.Identifier

def Options.withKeyTables (options : Options) (always : Bool) : Options :=
  { options with alwaysKeyTable := always }

def mark (marked : Bool) (lines : List Line) : List (Line × Bool) := lines.map fun line => (line, marked)

/-- The rows of a key table, if there are any. -/
def Options.rows? (options : Options) (keys : List String) : Option (List Case) :=
  if keys.isEmpty then none else some (options.cases keys)

mutual

def markedBase (options : Options) (level : Nat) (name : String) : Base → List (Line × Bool)
  | .record inner => markedRecord options level name inner
  | .choice values =>
    mark false (declarationLines options.escaper level (declareChoice options name values))
  | _ => []
termination_by structural base => base

/-- The lines of a record with every key table. Those of a table are marked, from its header to its
closing line, if the properties of its record are all named as their keys. -/
def markedRecord (options : Options) (level : Nat) (name : String) : Record Base → List (Line × Bool)
  | ⟨_, fields⟩ =>
    let keys := fields.map Field.key
    mark false [⟨level, .recordHeader name⟩]
      ++ markedFields options (level + 1) fields (options.identifiers keys)
      ++ mark (options.identifiers keys = keys)
        (keyTableLines options.escaper (level + 1) (options.rows? keys))
      ++ mark false [closingLine level]
termination_by structural record => record

def markedFields (options : Options) (level : Nat) :
    List (Field Base) → List String → List (Line × Bool)
  | [], _ | _, [] => []
  | ⟨_, base, isArray, isOptional⟩ :: fields, property :: properties =>
    let name := options.baseName property isArray base
    mark false [propertyLine options.escaper level property (writtenType isArray isOptional name)]
      ++ markedBase options level name base ++ markedFields options level fields properties
termination_by structural fields => fields

end

def markedModel (options : Options) : Model → List (Line × Bool)
  | .record record => markedRecord options 0 options.rootName (options.arranged record)
  | .enumeration enumeration =>
    mark false <| declarationLines options.escaper 0 <|
      declareChoice options options.rootName enumeration.values

/-- The lines that are written: those that are marked only if every key table is. -/
def chosen (always : Bool) (lines : List (Line × Bool)) : List Line :=
  (lines.filter fun line => always || !line.2).map Prod.fst

section Chosen

variable (always : Bool) (lines others : List (Line × Bool))

theorem chosen_append : chosen always (lines ++ others) = chosen always lines ++ chosen always others := by
  rw [chosen, List.filter_append, List.map_append]
  rfl

theorem chosen_mark (marked : Bool) (lines : List Line) :
    chosen always (mark marked lines) = if always || !marked then lines else [] := by
  rw [chosen, mark, List.filter_map, List.map_map]
  cases always <;> cases marked <;> simp [Function.comp_def]

theorem chosen_mark_false (lines : List Line) : chosen always (mark false lines) = lines := by
  rw [chosen_mark, Bool.not_false, Bool.or_true]
  rfl

theorem chosen_true : chosen true lines = lines.map Prod.fst := by
  rw [chosen]
  simp

end Chosen

/-! What is written with the redundant tables, and what without. -/

section Drafts

variable (options : Options) (always : Bool)

theorem keyTable?_withKeyTables (keys : List String) :
    (options.withKeyTables always).keyTable? keys =
      if always || !decide (options.identifiers keys = keys) then options.rows? keys else none := by
  have renamed : ((options.cases keys).any fun c => c.name != c.raw) =
      !decide (options.identifiers keys = keys) := by
    rw [Bool.eq_iff_iff, Bool.not_eq_true', decide_eq_false_iff_not]
    exact any_zipWith_ne (length_identifiers options keys)
  have same : (options.withKeyTables always).cases keys = options.cases keys := rfl
  have flag : (options.withKeyTables always).alwaysKeyTable = always := rfl
  rw [Options.keyTable?, Options.rows?, same, renamed, flag]
  cases always || !decide (options.identifiers keys = keys) <;> cases keys.isEmpty <;> rfl

theorem keyTableLines_withKeyTables (level : Nat) (keys : List String) :
    keyTableLines options.escaper level ((options.withKeyTables always).keyTable? keys) =
      chosen always (mark (options.identifiers keys = keys)
        (keyTableLines options.escaper level (options.rows? keys))) := by
  rw [chosen_mark, keyTable?_withKeyTables]
  split <;> rfl

theorem nestedLines_withKeyTables {base : Base}
    (ih : ∀ inner, base = .record inner → ∀ level name,
      declarationLines options.escaper level (draftRecord (options.withKeyTables always) name inner) =
        chosen always (markedRecord options level name inner)) (level : Nat) (name : String) :
    nestedLines options.escaper level (draftBase (options.withKeyTables always) name base) =
      chosen always (markedBase options level name base) := by
  cases base with
  | record inner => exact ih inner rfl level name
  | choice values => exact (chosen_mark_false always _).symm
  | _ => rfl

theorem propertyLines_withKeyTables {fields : List (Field Base)}
    (ih : ∀ field ∈ fields, ∀ inner, field.base = .record inner → ∀ level name,
      declarationLines options.escaper level (draftRecord (options.withKeyTables always) name inner) =
        chosen always (markedRecord options level name inner)) (level : Nat) (properties : List String) :
    propertyLines options.escaper level
        (List.zipWith (draftField (options.withKeyTables always)) fields properties) =
      chosen always (markedFields options level fields properties) := by
  induction fields generalizing properties with
  | nil => cases properties <;> rfl
  | cons field fields tail =>
      cases properties with
      | nil => rfl
      | cons property properties =>
          have base := nestedLines_withKeyTables options always (ih field List.mem_cons_self) level
            (options.fieldName field property)
          have rest := tail (fun other later => ih other (List.mem_cons_of_mem field later)) properties
          rw [List.zipWith_cons_cons, propertyLines_cons, rest, markedFields, chosen_append, chosen_append,
            chosen_mark_false, List.append_assoc]
          rw [Options.fieldName] at base
          rw [← base]
          rfl

theorem declarationLines_withKeyTables (level : Nat) (name : String) (record : Record Base) :
    declarationLines options.escaper level (draftRecord (options.withKeyTables always) name record) =
      chosen always (markedRecord options level name record) := by
  induction record using Record.induction generalizing level name with
  | step record ih =>
      have fields := propertyLines_withKeyTables options always ih (level + 1)
        (options.properties record.fields)
      rw [draftRecord_eq, declarationLines, markedRecord, chosen_append, chosen_append, chosen_append,
        chosen_mark_false, chosen_mark_false, ← keyTableLines_withKeyTables]
      rw [Options.properties] at fields
      rw [← fields]
      rfl

theorem text_withKeyTables (model : Model) :
    (options.withKeyTables always).text (draft (options.withKeyTables always) model) =
      options.layout.text (chosen always (markedModel options model)) := by
  cases model with
  | record record =>
      rw [markedModel, ← declarationLines_withKeyTables]
      rfl
  | enumeration enumeration =>
      rw [markedModel, chosen_mark_false]
      rfl

end Drafts

/-! A table that is written takes a name, and no other. -/

section Clashes

variable {options : Options} {parent : String} {record : Record Base} {path : List Nat} {clash : Clash}

theorem SiblingClash.always {fields : List (Field Base)} {index : Nat} {name : String}
    (h : SiblingClash (options.withKeyTables false) fields index name) :
    SiblingClash (options.withKeyTables true) fields index name := by
  refine ⟨h.declared, h.taken.imp_right ?_⟩
  rintro ⟨same, fields, -⟩
  exact ⟨same, fields, .inl rfl⟩

theorem SiblingClash.of_always {fields : List (Field Base)} {index : Nat} {name : String}
    (h : SiblingClash (options.withKeyTables true) fields index name) (other : name ≠ keyTableName) :
    SiblingClash (options.withKeyTables false) fields index name :=
  ⟨h.declared, .inl (h.taken.resolve_right fun taken => other taken.1)⟩

theorem ClashAlong.always (h : ClashAlong (options.withKeyTables false) parent record path clash) :
    ClashAlong (options.withKeyTables true) parent record path clash := by
  induction h with
  | here clash => exact .here clash.always
  | within found same declared _ ih => exact .within found same declared ih

theorem ClashAlong.of_always (h : ClashAlong (options.withKeyTables true) parent record path clash)
    (other : clash.name ≠ keyTableName) :
    ClashAlong (options.withKeyTables false) parent record path clash := by
  induction h with
  | here clash => exact .here (clash.of_always other)
  | within found same declared _ ih => exact .within found same declared (ih other)

theorem declare_withoutKeyTables {model : Model}
    (h : declare (options.withKeyTables true) model = .ok (draft (options.withKeyTables true) model)) :
    declare (options.withKeyTables false) model = .ok (draft (options.withKeyTables false) model) := by
  cases model with
  | record record =>
      have free := declareRecord_eq_ok_iff.mp h
      exact declareRecord_eq_ok_iff.mpr fun path clash inside => free path clash inside.always
  | enumeration enumeration => rfl

theorem name_of_declare_withKeyTables {model : Model}
    (h : declare (options.withKeyTables false) model = .ok (draft (options.withKeyTables false) model))
    (h' : declare (options.withKeyTables true) model = .error clash) : clash.name = keyTableName := by
  cases model with
  | record record =>
      obtain ⟨path, first⟩ := declareRecord_eq_error_iff.mp h'
      -- any other name clashes without the tables as well
      by_contra other
      exact declareRecord_eq_ok_iff.mp h path clash (first.1.of_always other)
  | enumeration enumeration => cases h'

end Clashes

/-- Where every key table can be written, the text without the redundant ones is the same text less their
lines. Where it cannot, though the others can, a type has the name of the table. -/
theorem keyTables_only_add {options : Options} (valid : options.refusal? = none) (model : Model) :
    (∀ text, emit model (options.withKeyTables true) = .ok text →
      text = options.layout.text ((markedModel options model).map Prod.fst) ∧
      emit model (options.withKeyTables false) =
        .ok (options.layout.text (((markedModel options model).filter (!·.2)).map Prod.fst))) ∧
    ∀ text failure, emit model (options.withKeyTables false) = .ok text →
      emit model (options.withKeyTables true) = .error failure →
        ∃ parent, failure = .clash ⟨parent, keyTableName⟩ := by
  have on : (options.withKeyTables true).refusal? = none := valid
  have off : (options.withKeyTables false).refusal? = none := valid
  constructor
  · intro text emitted
    obtain ⟨declared, rfl⟩ := (emit_eq_ok on).mp emitted
    constructor
    · rw [text_withKeyTables, chosen_true]
    · have fewer := (text_withKeyTables options false model).symm
      exact (emit_eq_ok off).mpr ⟨declare_withoutKeyTables declared, fewer⟩
  · intro text failure emitted failed
    obtain ⟨declared, -⟩ := (emit_eq_ok off).mp emitted
    obtain ⟨⟨parent, name⟩, rfl, clashes⟩ := (emit_eq_error on).mp failed
    obtain rfl : name = keyTableName := name_of_declare_withKeyTables declared clashes
    exact ⟨parent, rfl⟩

/-- A record whose key is renamed, around one whose table would be redundant and one without fields. -/
def guestList : Model :=
  .record ⟨"Model", [⟨"guest_list", .record ⟨"GuestList", [⟨"name", .string, false, false⟩,
    ⟨"rest", .record ⟨"Rest", []⟩, false, false⟩]⟩, true, false⟩]⟩

/-- A record in which the type of a field is named as a key table. -/
def codingKeysInside : Model :=
  .record ⟨"Model", [⟨"codingKeys", .choice ["a"], false, false⟩]⟩

theorem keyTables_only_add_guestList : Options.default.refusal? = none ∧
    (∃ text, emit guestList (Options.default.withKeyTables true) = .ok text ∧
      emit guestList (Options.default.withKeyTables false) = .ok (Options.default.layout.text
        (((markedModel .default guestList).filter (!·.2)).map Prod.fst))) ∧
    ∃ text parent, emit codingKeysInside (Options.default.withKeyTables false) = .ok text ∧
      emit codingKeysInside (Options.default.withKeyTables true) =
        .error (.clash ⟨parent, keyTableName⟩) := by
  have valid : Options.default.refusal? = none := by decide
  refine ⟨valid, ?_, ?_⟩
  · have succeeds : (emit guestList (Options.default.withKeyTables true)).isOk = true := by decide +kernel
    obtain ⟨text, emitted⟩ := exists_ok_of_isOk succeeds
    exact ⟨text, emitted, ((keyTables_only_add valid guestList).1 text emitted).2⟩
  · have succeeds : (emit codingKeysInside (Options.default.withKeyTables false)).isOk = true := by
      decide +kernel
    have fails : (emit codingKeysInside (Options.default.withKeyTables true)).isOk = false := by
      decide +kernel
    obtain ⟨text, emitted⟩ := exists_ok_of_isOk succeeds
    obtain ⟨failure, failed⟩ := exists_error_of_isOk fails
    obtain ⟨parent, rfl⟩ := (keyTables_only_add valid codingKeysInside).2 text failure emitted failed
    exact ⟨text, parent, emitted, failed⟩

end SwiftModel.Emission
