/- What the types that a text mentions mean: the type of a property that is declared beside it is
always that declaration; a type of the library may be hidden by a declaration of its name. -/
import SwiftModel.Proofs.Emission.ReadModel
import SwiftModel.Proofs.Emission.Scope
import SwiftModel.Proofs.Inference.Unsigned

namespace SwiftModel.Emission
open SwiftModel.Identifier SwiftModel.Inference

/-- The types in the header of a key table. -/
def keyTableTypes : List String := [rawType, "CodingKey"]

/-- A type is mentioned by its name, within a scope; what is meant is declared at a place, or else
it is the library's. -/
inductive Mentions (root : Declaration) : Scope → String → Option Place → Prop
  | rawType {scope : Scope} {path : List Nat} {name : String} {cases : List Case} :
      Stands root scope path (.enumeration name cases) → Mentions root scope rawType none
  | keyTable {scope : Scope} {path : List Nat} {name type : String}
      {properties : List (Property Declaration)} {rows : List Case} :
      Stands root scope path (.record name properties (some rows)) → type ∈ keyTableTypes →
      Mentions root (declaredTypes path properties (some rows) ++ scope) type none
  | library {scope : Scope} {path : List Nat} {name : String}
      {properties : List (Property Declaration)} {keyTable : Option (List Case)}
      {property : Property Declaration} :
      Stands root scope path (.record name properties keyTable) → property ∈ properties →
      property.nested = none →
      Mentions root (declaredTypes path properties keyTable ++ scope)
        (typeParts property.type).name none
  | nested {scope : Scope} {path : List Nat} {name : String}
      {properties : List (Property Declaration)} {keyTable : Option (List Case)} {index : Nat}
      {property : Property Declaration} {inner : Declaration} :
      Stands root scope path (.record name properties keyTable) →
      properties[index]? = some property → property.nested = some inner →
      Mentions root (declaredTypes path properties keyTable ++ scope)
        (typeParts property.type).name (some (.declaration (path ++ [index])))

/-- The types of the library that a record refers to: for the scalars among its fields, as the raw
type of its choices, and in the header of its key table. -/
inductive Options.Refers (options : Options) (record : Record Base) : String → Prop
  | scalar {field : Field Base} {name : String} :
      field ∈ record.fields → scalarName? field.base = some name → Refers options record name
  | choice {field : Field Base} {values : List String} :
      field ∈ record.fields → field.base = .choice values → Refers options record rawType
  | keyTable {name : String} :
      options.WritesKeyTable record.fields → name ∈ keyTableTypes → Refers options record name

/-! A type that is declared beside its property. -/

theorem lookup_nestedTypes (path : List Nat) (start : Nat) {index : Nat}
    {properties : List (Property Declaration)} {property : Property Declaration}
    {inner : Declaration} (found : properties[index]? = some property)
    (held : property.nested = some inner)
    (first : ∀ earlier < index, ∀ other, properties[earlier]? = some other →
      other.nested.map Declaration.name ≠ some inner.name) :
    (nestedTypes path start properties).lookup inner.name =
      some (.declaration (path ++ [start + index])) := by
  induction properties generalizing start index with
  | nil => cases found
  | cons head properties ih =>
      rw [nestedTypes]
      cases index with
      | zero =>
          cases found
          rw [held]
          exact List.lookup_cons_self
      | succ index =>
          have later : (nestedTypes path (start + 1) properties).lookup inner.name =
              some (.declaration (path ++ [start + (index + 1)])) := by
            rw [← Nat.add_assoc, Nat.add_right_comm]
            exact ih (start + 1) found fun earlier lt other here =>
              first (earlier + 1) (Nat.succ_lt_succ lt) other here
          cases nested : head.nested with
          | none => exact later
          | some declaration =>
              have other : inner.name ≠ declaration.name := fun same =>
                first 0 (Nat.succ_pos index) head rfl (by rw [nested, same]; rfl)
              rw [List.lookup_cons, beq_eq_false_iff_ne.mpr other]
              exact later

section Drafts

variable {options : Options} {root : Record Base} (unsigned : root.OnlyUnsigned)

include unsigned in
theorem name_draftField {outer : List String} {parent : String} {record : Record Base}
    (around : options.Around root outer parent record) {field : Field Base}
    (member : field ∈ record.fields) (property : String) :
    (typeParts (draftField options field property).type).name = options.fieldName field property := by
  have parts : typeParts (draftField options field property).type =
      ⟨options.fieldName field property, field.isArray, field.isOptional⟩ :=
    typeParts_writtenType (plain_fieldName property (unsigned record around.within field member))
  rw [parts]

include unsigned in
/-- The type of a property means what is declared beside the property. -/
theorem Mentions.lookup_nested
    (free : ∀ path clash, ¬ ClashAlong options options.rootName root path clash)
    {scope : Scope} {name : String} {place : Place}
    (h : Mentions (draftRecord options options.rootName root) scope name (some place)) :
    scope.lookup name = some place := by
  cases h with
  | @nested scope path parent properties keyTable index property inner stands found held =>
      obtain ⟨outer, record, around, declares, rfl, rfl⟩ := stands.drafted.exists_record
      obtain ⟨field, property, hf, hp, rfl⟩ := getElem?_drafts.mp found
      have named := nested_draftField options field property
      rw [held] at named
      obtain ⟨-, same⟩ := nestedName?_eq_some.mp named.symm
      -- an earlier type of the name would clash, and then nothing is emitted
      have first : ∀ earlier < index, ∀ other,
          (options.drafts record.fields)[earlier]? = some other →
          other.nested.map Declaration.name ≠ some inner.name := by
        rintro earlier lt other here taken
        obtain ⟨otherField, otherProperty, hf', hp', rfl⟩ := getElem?_drafts.mp here
        rw [nested_draftField] at taken
        have declared := getElem?_nestedNames hf hp
        have before := getElem?_nestedNames hf' hp'
        rw [← named] at declared
        rw [taken] at before
        exact around.free free [index] _ (.here ⟨declared, .inl ⟨earlier, lt, before⟩⟩)
      have own := lookup_nestedTypes path 0 found held first
      rw [name_draftField unsigned around (List.mem_of_getElem? hf), same, declaredTypes,
        List.lookup_append, List.lookup_append, own, Nat.zero_add]
      rfl

theorem lookup_eq_none_iff_not_mem {scope : Scope} {name : String} :
    scope.lookup name = none ↔ name ∉ scope.map Prod.fst := by
  rw [List.lookup_eq_none_iff, List.mem_map]
  constructor
  · rintro none ⟨entry, member, rfl⟩
    exact bne_iff_ne.mp (none entry member) rfl
  · intro absent entry member
    exact bne_iff_ne.mpr fun same => absent ⟨entry, member, same.symm⟩

include unsigned in
theorem Options.Refers.ne_keyTableName {outer : List String} {parent name : String}
    {record : Record Base} (around : options.Around root outer parent record)
    (h : options.Refers record name) : name ≠ keyTableName := by
  cases h with
  | scalar member scalar =>
      have others : ∀ type ∈ scalarNames, type ≠ keyTableName := by decide
      exact others name (mem_scalarNames scalar (unsigned record around.within _ member))
  | choice => decide
  | keyTable _ member =>
      have others : ∀ type ∈ keyTableTypes, type ≠ keyTableName := by decide
      exact others name member

theorem exists_scalarName {base : Base} (h : ¬ base.isNested = true) :
    ∃ name, scalarName? base = some name := by
  cases base with
  | record inner => exact absurd rfl h
  | choice values => exact absurd rfl h
  | _ => exact ⟨_, rfl⟩

include unsigned in
theorem Mentions.refers {scope : Scope} {name : String}
    (h : Mentions (draftRecord options options.rootName root) scope name none) :
    ∃ outer parent record, options.Around root outer parent record ∧ options.Refers record name ∧
      scope.Declares (options.typeNames record.fields ++ outer) := by
  cases h with
  | rawType stands =>
      obtain ⟨outer, parent, record, around, ⟨field, member, values, held⟩, declares⟩ :=
        stands.drafted.exists_choice
      exact ⟨outer, parent, record, around, .choice member held, declares⟩
  | @keyTable scope path parent type properties rows stands member =>
      obtain ⟨outer, record, around, declares, rfl, table⟩ := stands.drafted.exists_record
      have writes : options.WritesKeyTable record.fields := isSome_keyTable?.mp (table ▸ rfl)
      exact ⟨outer, parent, record, around, .keyTable writes member,
        declares.inside options path record.fields (some rows)⟩
  | @library scope path parent properties keyTable property stands member held =>
      obtain ⟨outer, record, around, declares, rfl, rfl⟩ := stands.drafted.exists_record
      obtain ⟨field, ofRecord, property, -, rfl⟩ := exists_field member
      have scalar : ¬ field.base.isNested = true := by
        intro nested
        have none := nested_draftField options field property
        rw [held, nestedName?_eq_some.mpr ⟨nested, rfl⟩] at none
        cases none
      obtain ⟨type, known⟩ := exists_scalarName scalar
      rw [name_draftField unsigned around ofRecord, fieldName_of_scalarName? options known]
      exact ⟨outer, parent, record, around, .scalar ofRecord known,
        declares.inside options path record.fields _⟩

include unsigned in
theorem Options.Refers.mentioned {outer : List String} {parent name : String}
    {record : Record Base} (around : options.Around root outer parent record)
    (h : options.Refers record name) :
    ∃ scope, Mentions (draftRecord options options.rootName root) scope name none ∧
      scope.Declares (options.typeNames record.fields ++ outer) := by
  obtain ⟨scope, path, declares, stands⟩ := around.stands
  rw [draftRecord_eq options parent record] at stands
  refine ⟨_, ?_, declares.inside options path record.fields
    (options.keyTable? (record.fields.map Field.key))⟩
  cases h with
  | @scalar field _ member scalar =>
      obtain ⟨index, property, drafted⟩ := exists_draft options member
      have mention := Mentions.library stands (List.mem_of_getElem? drafted)
        (draftBase_of_scalarName? scalar _)
      rwa [name_draftField unsigned around member, fieldName_of_scalarName? options scalar] at mention
  | @choice field values member held =>
      obtain ⟨index, property, drafted⟩ := exists_draft options member
      have nested : (draftField options field property).nested =
          some (declareChoice options (options.fieldName field property) values) := by
        obtain ⟨key, base, isArray, isOptional⟩ := field
        cases held
        rfl
      exact .rawType (stands.nested drafted nested)
  | keyTable writes member =>
      obtain ⟨rows, table⟩ := Option.isSome_iff_exists.mp (isSome_keyTable?.mpr writes)
      rw [table] at stands ⊢
      exact .keyTable stands member

end Drafts

/-- In the text of a model that is inferred, the type of a property that needs a declaration is
always the one that is declared beside it. A type of the library is meant wherever it is mentioned,
exactly if no record that refers to it declares a type of its name, nor does one around that, and
the root has another name. -/
theorem mentions_mean {options : Options} (valid : options.refusal? = none) {record : Record Base}
    (inferred : Inferred record) {text : String} (emitted : emit (.record record) options = .ok text) :
    ∃ declaration, declare options (.record record) = .ok declaration ∧
      text = options.text declaration ∧
      (∀ scope name place, Mentions declaration scope name (some place) →
        scope.lookup name = some place) ∧
      ∀ name, (∀ scope, Mentions declaration scope name none → scope.lookup name = none) ↔
        ∀ outer parent inner, options.Around (options.arranged record) outer parent inner →
          options.Refers inner name → name ∉ options.typeNames inner.fields ++ outer := by
  obtain ⟨declared, rfl⟩ := (emit_eq_ok valid).mp emitted
  have unsigned := onlyUnsigned_arranged inferred.onlyUnsigned options
  have free := declareRecord_eq_ok_iff.mp declared
  refine ⟨_, declared, rfl, fun scope name place => Mentions.lookup_nested unsigned free, ?_⟩
  intro name
  constructor
  · intro right outer parent inner around refers hidden
    obtain ⟨scope, mention, declares⟩ := refers.mentioned unsigned around
    exact lookup_eq_none_iff_not_mem.mp (right scope mention)
      ((declares name (refers.ne_keyTableName unsigned around)).mpr hidden)
  · intro unhidden scope mention
    obtain ⟨outer, parent, inner, around, refers, declares⟩ := mention.refers unsigned
    rw [lookup_eq_none_iff_not_mem, declares name (refers.ne_keyTableName unsigned around)]
    exact unhidden outer parent inner around refers

theorem mentions_mean_owner :
    ∃ declaration, declare Options.default (.record ⟨"Model",
        [⟨"owner", .record ⟨"Owner", [⟨"name", .string, false, false⟩]⟩, false, false⟩]⟩) =
        .ok declaration ∧
      ∀ scope name place, Mentions declaration scope name (some place) →
        scope.lookup name = some place := by
  have inferred : Inferred ⟨"Model",
      [⟨"owner", .record ⟨"Owner", [⟨"name", .string, false, false⟩]⟩, false, false⟩]⟩ :=
    @Inferred.sample _ true (.object [("owner", .object [("name", .string "Ada")])]) rfl
  have valid : Options.default.refusal? = none := by decide
  obtain ⟨declaration, declared, -, nested, -⟩ := mentions_mean valid inferred rfl
  exact ⟨declaration, declared, nested⟩

/-- A record under the key `string` hides the library's type from the texts in it. -/
theorem not_mentions_mean_string :
    ¬ ∀ (options : Options) (record : Record Base) (text : String) (declaration : Declaration),
      options.refusal? = none → Inferred record → emit (.record record) options = .ok text →
      declare options (.record record) = .ok declaration →
      ∀ scope name place, Mentions declaration scope name place → scope.lookup name = place := by
  intro always
  have inferred : Inferred ⟨"Model",
      [⟨"string", .record ⟨"String", [⟨"a", .string, false, false⟩]⟩, false, false⟩]⟩ :=
    @Inferred.sample _ true (.object [("string", .object [("a", .string "x")])]) rfl
  have declared : declare Options.default (.record ⟨"Model",
      [⟨"string", .record ⟨"String", [⟨"a", .string, false, false⟩]⟩, false, false⟩]⟩) =
      .ok (.record "Model"
        [⟨"string", "String", some (.record "String" [⟨"a", "String", none⟩] none)⟩] none) := rfl
  have stands := @Stands.nested (.record "Model"
    [⟨"string", "String", some (.record "String" [⟨"a", "String", none⟩] none)⟩] none)
    _ _ _ _ _ 0 _ _ .root rfl rfl
  have meant := always .default _ _ _ (by decide) inferred rfl declared _ _ _
    (.library stands (.head _) rfl)
  exact absurd meant (by decide)

end SwiftModel.Emission
