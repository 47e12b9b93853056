/- A model can be read back from its text, up to the names that the text gives to types; so models
that differ in more than those never have one text. -/
import SwiftModel.Proofs.Emission.Accepted
import SwiftModel.Proofs.Emission.Arranged
import SwiftModel.Proofs.Emission.Clash
import SwiftModel.Proofs.Emission.ReadDeclaration
import SwiftModel.Proofs.Emission.WrittenType

namespace SwiftModel.Emission
open SwiftModel.Identifier

def scalarBase? (name : String) : Option Base :=
  [.integer, .double, .boolean, .string, .null, .uuid, .named "UInt"].find?
    (scalarName? · == some name)

/-- The key of a property: its row in the key table tells it; without a table it is the name. -/
def keyOf? (keyTable : Option (List Case)) (property : String) : Option String :=
  match keyTable with
  | none => some property
  | some rows => (rows.find? (·.name == property)).map Case.raw

mutual

def Declaration.base? : Declaration → Option Base
  | .record _ properties keyTable =>
    (readFields? keyTable properties).map fun fields => .record ⟨"", fields⟩
  | .enumeration _ cases => some (.choice (cases.map Case.raw))
termination_by structural declaration => declaration

def readFields? (keyTable : Option (List Case)) :
    List (Property Declaration) → Option (List (Field Base))
  | [] => some []
  | ⟨name, type, nested⟩ :: properties => do
    let parts := typeParts type
    let base ←
      match nested with
      | some declaration => declaration.base?
      | none => scalarBase? parts.name
    let key ← keyOf? keyTable name
    let fields ← readFields? keyTable properties
    return ⟨key, base, parts.isArray, parts.isOptional⟩ :: fields
termination_by structural properties => properties

end

def Declaration.model? : Declaration → Option Model
  | .record _ properties keyTable =>
    (readFields? keyTable properties).map fun fields => .record ⟨"", fields⟩
  | .enumeration _ cases => some (.enumeration ⟨"", cases.map Case.raw⟩)

def readModel (options : Options) (text : String) : Option Model :=
  (readDeclaration options text).bind Declaration.model?

/-- A model with the fields of every record in it in the order in which they are written. -/
def Options.arrangedModel (options : Options) : Model → Model
  | .record root => .record (options.arranged root)
  | .enumeration root => .enumeration root

/-! Keys come back. -/

theorem find?_row {fields : List (Field Base)} {properties : List String}
    (nodup : properties.Nodup) {field : Field Base} {property : String}
    (h : (field, property) ∈ fields.zip properties) :
    (List.zipWith Case.mk properties (fields.map Field.key)).find? (fun row => row.name == property) =
      some ⟨property, field.key⟩ := by
  induction fields generalizing properties with
  | nil => cases h
  | cons first fields ih =>
      cases properties with
      | nil => cases h
      | cons name properties =>
          obtain ⟨fresh, nodup⟩ := List.nodup_cons.mp nodup
          rw [List.map_cons, List.zipWith_cons_cons, List.find?_cons]
          rcases List.mem_cons.mp h with same | later
          · cases same
            rw [beq_self_eq_true]
          · have other : name ≠ property := fun same => fresh (same ▸ (List.of_mem_zip later).2)
            rw [beq_eq_false_iff_ne.mpr other]
            exact ih nodup later

theorem eq_of_mem_zip_map {α β : Type} {f : α → β} {list : List α} {a : α} {b : β}
    (h : (a, b) ∈ list.zip (list.map f)) : b = f a := by
  induction list with
  | nil => cases h
  | cons first list ih =>
      rcases List.mem_cons.mp h with same | later
      · cases same
        rfl
      · exact ih later

theorem eq_cases_of_keyTable? {options : Options} {keys : List String} {rows : List Case}
    (h : options.keyTable? keys = some rows) : rows = options.cases keys := by
  rw [Options.keyTable?] at h
  split at h
  next => exact (Option.some.inj h).symm
  next => cases h

theorem keyOf?_keyTable? {options : Options} {fields : List (Field Base)} {field : Field Base}
    {property : String} (h : (field, property) ∈ fields.zip (options.properties fields)) :
    keyOf? (options.keyTable? (fields.map Field.key)) property = some field.key := by
  cases table : options.keyTable? (fields.map Field.key) with
  | none =>
      have unwritten : ¬ options.WritesKeyTable fields := by
        rw [← isSome_keyTable?, table]
        exact Bool.false_ne_true
      -- no table is written only where every property is named as its key
      have nonempty : fields ≠ [] := List.ne_nil_of_mem (List.of_mem_zip h).1
      have same : options.properties fields = fields.map Field.key := by
        by_contra renamed
        exact unwritten ⟨nonempty, .inr renamed⟩
      rw [same] at h
      exact congrArg some (eq_of_mem_zip_map h)
  | some rows =>
      rw [eq_cases_of_keyTable? table]
      exact congrArg (Option.map Case.raw)
        (find?_row (nodup_identifiers options (fields.map Field.key)) h)

theorem raws_cases (options : Options) (keys : List String) :
    (options.cases keys).map Case.raw = keys := by
  have short : keys.length ≤ (options.identifiers keys).length :=
    Nat.le_of_eq (length_identifiers options keys).symm
  rw [Options.cases, List.map_zipWith]
  exact List.map_zip_eq_zipWith.symm.trans (List.map_snd_zip short)

/-! Types come back. -/

def scalarNames : List String := ["Int", "Double", "Bool", "String", "NSNull", "UUID", "UInt"]

theorem mem_scalarNames {base : Base} {name : String} (h : scalarName? base = some name)
    (unsigned : ∀ given, base = .named given → given = "UInt") : name ∈ scalarNames := by
  cases base with
  | named given =>
      cases h
      rw [unsigned _ rfl]
      decide
  | record inner => cases h
  | choice values => cases h
  | _ =>
      cases h
      decide

theorem plain_scalarName {base : Base} {name : String} (h : scalarName? base = some name)
    (unsigned : ∀ given, base = .named given → given = "UInt") : Plain name.toList := by
  have known : scalarNames.all (fun scalar => scalar.toList.all isPlain) = true := rfl
  exact fun c member =>
    List.all_eq_true.mp (List.all_eq_true.mp known name (mem_scalarNames h unsigned)) c member

theorem scalarBase?_scalarName {base : Base} {name : String} (h : scalarName? base = some name)
    (unsigned : ∀ given, base = .named given → given = "UInt") :
    scalarBase? name = some base := by
  cases base with
  | named given =>
      cases h
      rw [unsigned _ rfl]
      rfl
  | record inner => cases h
  | choice values => cases h
  | _ =>
      cases h
      rfl

theorem plain_fieldName {options : Options} {field : Field Base} (property : String)
    (unsigned : ∀ given, field.base = .named given → given = "UInt") :
    Plain (options.fieldName field property).toList := by
  rw [Options.fieldName, Options.baseName]
  cases scalar : scalarName? field.base with
  | none => exact plain_declaredName options property field.isArray
  | some name => exact plain_scalarName scalar unsigned

def Property.base? (property : Property Declaration) : Option Base :=
  match property.nested with
  | some declaration => declaration.base?
  | none => scalarBase? (typeParts property.type).name

theorem readFields?_cons (keyTable : Option (List Case)) (property : Property Declaration)
    (properties : List (Property Declaration)) :
    readFields? keyTable (property :: properties) =
      property.base?.bind fun base => (keyOf? keyTable property.name).bind fun key =>
        (readFields? keyTable properties).bind fun fields =>
          some (⟨key, base, (typeParts property.type).isArray,
            (typeParts property.type).isOptional⟩ :: fields) := by
  obtain ⟨name, type, nested⟩ := property
  cases nested with
  | none =>
      rw [readFields?]
      rfl
  | some declaration =>
      rw [readFields?]
      rfl

/-! Drafts come back. -/

section Drafts

variable {options : Options}

theorem draftBase_of_scalarName? {base : Base} {scalar : String}
    (h : scalarName? base = some scalar) (name : String) : draftBase options name base = none := by
  cases base with
  | record inner => cases h
  | choice values => cases h
  | _ => rfl

theorem unnamed_of_scalarName? {base : Base} {scalar : String}
    (h : scalarName? base = some scalar) : base.unnamed = base := by
  cases base with
  | record inner => cases h
  | _ => rfl

theorem base?_draftField {field : Field Base} (property : String)
    (unsigned : ∀ given, field.base = .named given → given = "UInt")
    (ih : ∀ inner, field.base = .record inner → ∀ name,
      (draftRecord options name inner).base? = some (.record inner.unnamed)) :
    (draftField options field property).base? = some field.base.unnamed := by
  cases scalar : scalarName? field.base with
  | some name =>
      have nested : (draftField options field property).nested = none :=
        draftBase_of_scalarName? scalar _
      have parts : typeParts (draftField options field property).type =
          ⟨name, field.isArray, field.isOptional⟩ :=
        fieldName_of_scalarName? options scalar property ▸
          typeParts_writtenType (plain_fieldName property unsigned)
      rw [Property.base?, nested, parts, unnamed_of_scalarName? scalar]
      exact scalarBase?_scalarName scalar unsigned
  | none =>
      obtain ⟨key, base, isArray, isOptional⟩ := field
      cases base with
      | record inner => exact ih inner rfl _
      | choice values =>
          exact congrArg (fun raws => some (Base.choice raws)) (raws_cases options values)
      | _ => cases scalar

/-- Fields come back if the key and the base of each does. -/
theorem readFields?_zipWith {keyTable : Option (List Case)} {fields : List (Field Base)}
    {properties : List String} (long : fields.length = properties.length)
    (keys : ∀ field property, (field, property) ∈ fields.zip properties →
      keyOf? keyTable property = some field.key)
    (bases : ∀ field ∈ fields, ∀ property,
      (draftField options field property).base? = some field.base.unnamed)
    (plain : ∀ field ∈ fields, ∀ property, Plain (options.fieldName field property).toList) :
    readFields? keyTable (List.zipWith (draftField options) fields properties) =
      some (fields.map Field.unnamed) := by
  induction fields generalizing properties with
  | nil => rfl
  | cons field fields ih =>
      cases properties with
      | nil => cases long
      | cons property properties =>
          obtain ⟨base, bases⟩ := List.forall_mem_cons.mp bases
          obtain ⟨named, plain⟩ := List.forall_mem_cons.mp plain
          have parts : typeParts (draftField options field property).type =
              ⟨options.fieldName field property, field.isArray, field.isOptional⟩ :=
            typeParts_writtenType (named property)
          rw [List.zipWith_cons_cons, readFields?_cons, base property, Option.bind_some,
            show (draftField options field property).name = property from rfl,
            keys field property (.head _), Option.bind_some, ih (Nat.succ.inj long)
              (fun field property member => keys field property (.tail _ member)) bases plain,
            Option.bind_some, parts]
          rfl

theorem readFields?_draft (options : Options) {record : Record Base} (unsigned : record.OnlyUnsigned)
    (ih : ∀ field ∈ record.fields, ∀ inner, field.base = .record inner → ∀ name,
      (draftRecord options name inner).base? = some (.record inner.unnamed)) :
    readFields? (options.keyTable? (record.fields.map Field.key))
        (options.drafts record.fields) =
      some record.unnamed.fields := by
  have forced : ∀ field ∈ record.fields, ∀ given, field.base = .named given → given = "UInt" :=
    fun field member => unsigned record .self field member
  rw [Record.unnamed_eq]
  exact readFields?_zipWith (length_properties options record.fields).symm
    (fun field property => keyOf?_keyTable?)
    (fun field member property => base?_draftField property (forced field member) (ih field member))
    (fun field member property => plain_fieldName property (forced field member))

theorem base?_draftRecord {record : Record Base} (unsigned : record.OnlyUnsigned) (name : String) :
    (draftRecord options name record).base? = some (.record record.unnamed) := by
  induction record using Record.induction generalizing name with
  | step record ih =>
      have fields := readFields?_draft options unsigned
        fun field member inner same => ih field member inner same (unsigned.inner member same)
      rw [draftRecord_eq, Declaration.base?, fields, Option.map_some, Record.unnamed_eq]

theorem model?_draft {model : Model} (unsigned : model.OnlyUnsigned) :
    (draft options model).model? = some (options.arrangedModel model).unnamed := by
  cases model with
  | record root =>
      have arranged := onlyUnsigned_arranged unsigned options
      have fields := readFields?_draft options arranged fun field member inner same =>
        base?_draftRecord (arranged.inner member same)
      rw [draft, draftRecord_eq, Declaration.model?, fields, Option.map_some,
        Options.arrangedModel, Model.unnamed, Record.unnamed_eq]
  | enumeration root =>
      exact congrArg (fun raws => some (Model.enumeration ⟨"", raws⟩)) (raws_cases options root.values)

/-! Drafts are legible. -/

theorem plain_of_mem_cases {keys : List String} {row : Case} (h : row ∈ options.cases keys) :
    Plain row.name.toList := by
  rw [Options.cases, ← List.map_uncurry_zip_eq_zipWith] at h
  obtain ⟨pair, member, rfl⟩ := List.mem_map.mp h
  exact plain_of_mem_identifiers (List.of_mem_zip member).1

theorem legible_draftRecord {record : Record Base} (unsigned : record.OnlyUnsigned) {name : String}
    (plain : Plain name.toList) : (draftRecord options name record).Legible := by
  induction record using Record.induction generalizing name with
  | step record ih =>
      rw [draftRecord_eq]
      refine .record plain ?_ ?_ ?_
      · intro property member
        obtain ⟨field, ofRecord, name, known, rfl⟩ := exists_field member
        exact ⟨plain_of_mem_identifiers known, newline_not_mem_writtenType
          (plain_fieldName name (unsigned record .self field ofRecord))⟩
      · intro property member nested same
        obtain ⟨field, ofRecord, name, -, rfl⟩ := exists_field member
        obtain ⟨key, base, isArray, isOptional⟩ := field
        cases base with
        | record inner =>
            cases same
            exact ih _ ofRecord inner rfl (unsigned.inner ofRecord rfl)
              (plain_declaredName options name isArray)
        | choice values =>
            cases same
            exact .enumeration (plain_declaredName options name isArray) fun row => plain_of_mem_cases
        | _ => cases same
      · intro cases table row member
        rw [eq_cases_of_keyTable? table] at member
        exact plain_of_mem_cases member

theorem legible_draft (valid : options.refusal? = none) {model : Model}
    (unsigned : model.OnlyUnsigned) : (draft options model).Legible := by
  cases model with
  | record root =>
      exact legible_draftRecord (onlyUnsigned_arranged unsigned options) (plain_rootName valid)
  | enumeration root => exact .enumeration (plain_rootName valid) fun row => plain_of_mem_cases

end Drafts

/-- Text that is emitted is read back as the model it was emitted for, with fields in the order in
which they are written and without the names of types; so models that differ otherwise never have
one text. -/
theorem readModel_emit {options : Options} (valid : options.refusal? = none)
    (readable : options.escaper = .swift ∨ options.escaper = .none) :
    (∀ model text, model.OnlyUnsigned → emit model options = .ok text →
      readModel options text = some (options.arrangedModel model).unnamed) ∧
    (∀ first second text, first.OnlyUnsigned → second.OnlyUnsigned →
      emit first options = .ok text → emit second options = .ok text →
        (options.arrangedModel first).unnamed = (options.arrangedModel second).unnamed) := by
  have back : ∀ model text, model.OnlyUnsigned → emit model options = .ok text →
      readModel options text = some (options.arrangedModel model).unnamed := by
    intro model text unsigned emitted
    obtain ⟨-, rfl⟩ := (emit_eq_ok valid).mp emitted
    have read := readDeclaration_text readable (fun name => newline_not_mem_interface valid)
      (legible_draft valid unsigned)
    rw [readModel, Options.text, read]
    exact model?_draft unsigned
  refine ⟨back, ?_⟩
  intro first second text hf hs ef es
  have same := (back first text hf ef).symm.trans (back second text hs es)
  exact Option.some.inj same

/-- A key with a quotation mark in it, under a key that is a reserved word. -/
def quotedRecord : Record Base :=
  ⟨"Model", [⟨"is_on", .named "UInt", true, true⟩,
    ⟨"in", .record ⟨"In", [⟨"a\"b", .choice ["x y"], false, false⟩]⟩, false, false⟩]⟩

theorem readModel_quotedRecord :
    ∃ text, emit (.record quotedRecord) Options.default = .ok text ∧
      readModel Options.default text = some (.record ⟨"", [⟨"is_on", .named "UInt", true, true⟩,
        ⟨"in", .record ⟨"", [⟨"a\"b", .choice ["x y"], false, false⟩]⟩, false, false⟩]⟩) := by
  have valid : Options.default.refusal? = none := by decide
  have unsigned : quotedRecord.OnlyUnsigned :=
    .intro (List.forall_mem_cons.mpr ⟨rfl, List.forall_mem_cons.mpr
      ⟨.intro (List.forall_mem_cons.mpr ⟨trivial, fun _ member => (nomatch member)⟩),
        fun _ member => (nomatch member)⟩⟩)
  exact ⟨_, rfl, (readModel_emit valid (.inl rfl)).1 (.record quotedRecord) _ unsigned rfl⟩

end SwiftModel.Emission
