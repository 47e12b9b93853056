/- Which names in an emitted text are identifiers: those of types always, those of properties and cases
where every capital in them may stand in a name. -/
import SwiftModel.Proofs.Emission.ReadModel
import SwiftModel.Proofs.Emission.Scope
import SwiftModel.Proofs.Identifier.Legal

namespace SwiftModel.Emission
open SwiftModel.Identifier

variable {options : Options}

theorem forall₂_zipWith {α β γ : Type} {related : α → β → Prop} {related' : α → γ → Prop}
    {f : α → β → γ} {l : List α} {l' : List β} (h : List.Forall₂ related l l')
    (step : ∀ a b, related a b → related' a (f a b)) :
    List.Forall₂ related' l (List.zipWith f l l') := by
  induction h with
  | nil => exact .nil
  | cons head _ ih => exact .cons (step _ _ head) ih

/-! Properties and cases are spelled as the keys they stand for ask for. -/

theorem forall₂_identifiers (options : Options) (keys : List String) :
    List.Forall₂ (fun key name => options.propertyNaming.Spells key.toList name.toList) keys
      (options.identifiers keys) := options.propertyNaming.forall₂_spells keys

/-- A case stands for a key, and is spelled as it asks for. -/
structure Options.SpellsCase (options : Options) (key : String) (c : Case) : Prop where
  raw : c.raw = key
  spells : options.propertyNaming.Spells key.toList c.name.toList

theorem forall₂_cases (options : Options) (keys : List String) :
    List.Forall₂ options.SpellsCase keys (options.cases keys) := by
  rw [Options.cases, List.zipWith_comm]
  exact forall₂_zipWith (forall₂_identifiers options keys) fun _ _ spells => ⟨rfl, spells⟩

theorem forall₂_drafts (options : Options) (fields : List (Field Base)) :
    List.Forall₂ (fun field property =>
      options.propertyNaming.Spells field.key.toList property.name.toList) fields
      (options.drafts fields) := by
  have each := forall₂_identifiers options (fields.map Field.key)
  rw [List.forall₂_map_left_iff] at each
  exact forall₂_zipWith each fun _ _ => id

theorem forall₂_rows {fields : List (Field Base)} {rows : List Case}
    (h : options.keyTable? (fields.map Field.key) = some rows) :
    List.Forall₂ (fun field row => options.SpellsCase field.key row) fields rows := by
  rw [eq_cases_of_keyTable? h]
  have each := forall₂_cases options (fields.map Field.key)
  rwa [List.forall₂_map_left_iff] at each

/-! What stands in the declaration of a model. -/

/-- A record of a model, with its fields in the order in which they are written. -/
def Options.HasRecord (options : Options) : Model → Record Base → Prop
  | .record root, inner => (options.arranged root).Within inner
  | .enumeration _, _ => False

/-- The texts of an enumeration of a model: the root's, or those that a field chooses from. -/
def Options.HasChoice (options : Options) : Model → List String → Prop
  | .record root, values => ∃ inner, (options.arranged root).Within inner ∧
      ∃ field ∈ inner.fields, field.base = .choice values
  | .enumeration root, values => root.values = values

theorem Stands.eq_of_enumeration {name : String} {cases : List Case} {scope : Scope} {path : List Nat}
    {inner : Declaration} (h : Stands (.enumeration name cases) scope path inner) :
    inner = .enumeration name cases := by
  induction h with
  | root => rfl
  | nested _ _ _ ih => exact nomatch ih

theorem Stands.exists_record {model : Model} {scope : Scope} {path : List Nat} {name : String}
    {properties : List (Property Declaration)} {keyTable : Option (List Case)}
    (h : Stands (draft options model) scope path (.record name properties keyTable)) :
    ∃ inner, options.HasRecord model inner ∧ properties = options.drafts inner.fields ∧
      keyTable = options.keyTable? (inner.fields.map Field.key) := by
  cases model with
  | enumeration root => exact nomatch h.eq_of_enumeration
  | record root =>
      obtain ⟨_, inner, around, -, same, same'⟩ := h.drafted.exists_record
      exact ⟨inner, around.within, same, same'⟩

theorem Stands.exists_choice {model : Model} {scope : Scope} {path : List Nat} {name : String}
    {cases : List Case} (h : Stands (draft options model) scope path (.enumeration name cases)) :
    ∃ values, options.HasChoice model values ∧ cases = options.cases values := by
  cases model with
  | enumeration root =>
      cases h.eq_of_enumeration
      exact ⟨root.values, rfl, rfl⟩
  | record root =>
      have drafted := h.drafted
      generalize same : Declaration.enumeration name cases = declaration at drafted
      cases drafted with
      | record =>
          rw [draftRecord_eq] at same
          cases same
      | choice around member held =>
          cases same
          exact ⟨_, ⟨_, around.within, _, member, held⟩, rfl⟩

/-- Below the root, every declaration has the name of the type of a property. -/
theorem Stands.exists_name {model : Model} {scope : Scope} {path : List Nat} {inner : Declaration}
    (h : Stands (draft options model) scope path inner) :
    path = [] ∧ inner = draft options model ∨
      path ≠ [] ∧ ∃ property isArray, inner.name = options.declaredName property isArray := by
  cases h with
  | root => exact .inl ⟨rfl, rfl⟩
  | nested stands found held =>
      obtain ⟨record, -, rfl, -⟩ := stands.exists_record
      obtain ⟨field, property, -, -, rfl⟩ := getElem?_drafts.mp found
      have named := nested_draftField options field property
      rw [held] at named
      obtain ⟨nested, same⟩ := nestedName?_eq_some.mp named.symm
      refine .inr ⟨List.append_ne_nil_of_right_ne_nil _ (List.cons_ne_nil _ _), property, field.isArray, ?_⟩
      rw [← same, fieldName_of_isNested property nested]

theorem name_draft (options : Options) (model : Model) : (draft options model).name = options.rootName := by
  cases model with
  | record root =>
      rw [draft, draftRecord_eq]
      rfl
  | enumeration root => rfl

/-- A key is spelled as an identifier exactly if the capitals that camel case puts into it may stand in
names; spelled otherwise it still begins as one, and it is never underscores alone. So are the
properties of every record that is emitted, the rows of its key table, and the cases of every
enumeration, whatever is done to make them distinct. -/
theorem identifiers_spelled (options : Options) :
    (∀ key : String, options.propertyNaming.Spells key.toList
      (options.propertyNaming.identifier key).toList) ∧
    ∀ (model : Model) (text : String), options.refusal? = none →
      emit model options = .ok text → ∃ declaration, declare options model = .ok declaration ∧
        text = options.text declaration ∧
        (∀ scope path name properties keyTable,
          Stands declaration scope path (.record name properties keyTable) →
            ∃ inner, options.HasRecord model inner ∧
              List.Forall₂ (fun field property =>
                options.propertyNaming.Spells field.key.toList property.name.toList)
                inner.fields properties ∧
              ∀ rows, keyTable = some rows →
                List.Forall₂ (fun field row => options.SpellsCase field.key row) inner.fields rows) ∧
        ∀ scope path name cases, Stands declaration scope path (.enumeration name cases) →
          ∃ values, options.HasChoice model values ∧
            List.Forall₂ options.SpellsCase values cases := by
  constructor
  · intro key
    rw [PropertyNaming.identifier, String.toList_ofList]
    exact options.propertyNaming.spells_spell key.toList
  · intro model text valid emitted
    obtain ⟨declared, rfl⟩ := (emit_eq_ok valid).mp emitted
    refine ⟨_, declared, rfl, ?_, ?_⟩
    · intro scope path name properties keyTable stands
      obtain ⟨inner, has, rfl, rfl⟩ := stands.exists_record
      exact ⟨inner, has, forall₂_drafts options inner.fields, fun rows => forall₂_rows⟩
    · intro scope path name cases stands
      obtain ⟨values, has, rfl⟩ := stands.exists_choice
      exact ⟨values, has, forall₂_cases options values⟩

/-- The capital of `ǰ` is a letter with a mark behind it, which stands in no name. -/
def caronRecord : Record Base := ⟨"Model", [⟨"a_\u01F0", .integer, false, false⟩]⟩

theorem identifiers_spelled_caron :
    isIdentifier (PropertyNaming.camelFromSnake.identifier "a_\u01F0").toList = false ∧
    ∃ declaration, declare .default (.record caronRecord) = .ok declaration ∧
      ∀ scope path name properties keyTable,
        Stands declaration scope path (.record name properties keyTable) →
          ∃ inner, Options.default.HasRecord (.record caronRecord) inner ∧
            List.Forall₂ (fun field property =>
              PropertyNaming.camelFromSnake.Spells field.key.toList property.name.toList)
              inner.fields properties := by
  constructor
  · have spells := (identifiers_spelled .default).1 "a_\u01F0"
    exact Bool.eq_false_iff.mpr fun identifier =>
      absurd (spells.identifier.mp identifier) (by decide +kernel)
  · obtain ⟨declaration, declared, -, records, -⟩ :=
      (identifiers_spelled .default).2 (.record caronRecord) _ (by decide) rfl
    refine ⟨declaration, declared, fun scope path name properties keyTable stands => ?_⟩
    obtain ⟨inner, has, spelled, -⟩ := records scope path name properties keyTable stands
    exact ⟨inner, has, spelled⟩

theorem not_identifiers_legal :
    ¬ ∀ (naming : PropertyNaming) (key : String), Legal (naming.identifier key).toList := fun all =>
  absurd (all .camelFromSnake "a_\u01F0") (by decide +kernel)

/-- Every type that is declared in an emitted text has an identifier for a name. That of the root is the
one that the options give, and not reserved; below it a name is more than underscores, and reserved at
most if it is a reserved word with an underscore in front. -/
theorem declared_names_legal {options : Options} (valid : options.refusal? = none) {model : Model}
    {text : String} (emitted : emit model options = .ok text) :
    ∃ declaration, declare options model = .ok declaration ∧ text = options.text declaration ∧
      ∀ scope path inner, Stands declaration scope path inner →
        isIdentifier inner.name.toList = true ∧
        (path = [] → inner.name = options.rootName ∧ inner.name ∉ options.escaper.reserved) ∧
        (path ≠ [] → Named inner.name.toList ∧ (inner.name ∈ options.escaper.reserved →
          ∃ word ∈ options.escaper.reserved, inner.name = "_" ++ word)) := by
  obtain ⟨declared, rfl⟩ := (emit_eq_ok valid).mp emitted
  obtain ⟨identifier, free, -⟩ := refusal?_eq_none_iff.mp valid
  refine ⟨_, declared, rfl, ?_⟩
  intro scope path inner stands
  rcases stands.exists_name with ⟨here, rfl⟩ | ⟨below, property, isArray, named⟩
  · rw [name_draft]
    exact ⟨identifier, fun _ => ⟨rfl, free⟩, fun below => absurd here below⟩
  · have legal := options.escaper.legal_avoidReserved
      (options.typeNaming.legal_nestedTypeName property (isArray && options.singularElements))
    rw [named]
    exact ⟨legal.identifier, fun here => absurd here below, fun _ => ⟨legal.named, Escaper.exists_reserved⟩⟩

/-- Elements whose name is put into the singular, and in them a type whose name is reserved. -/
def propertiesModel : Model :=
  .record ⟨"Model", [⟨"properties", .record ⟨"Properties", [⟨"type", .choice ["a", "b"], false, false⟩]⟩,
    true, false⟩]⟩

def singularOptions : Options := { Options.default with singularElements := true }

theorem declared_names_legal_properties :
    ∃ declaration, declare singularOptions propertiesModel = .ok declaration ∧
      ∀ scope path inner, Stands declaration scope path inner →
        isIdentifier inner.name.toList = true ∧
        (path = [] → inner.name = "Model" ∧ inner.name ∉ Escaper.swift.reserved) ∧
        (path ≠ [] → Named inner.name.toList ∧ (inner.name ∈ Escaper.swift.reserved →
          ∃ word ∈ Escaper.swift.reserved, inner.name = "_" ++ word)) := by
  have valid : singularOptions.refusal? = none := by decide
  obtain ⟨declaration, declared, -, legal⟩ := @declared_names_legal _ valid propertiesModel _ rfl
  exact ⟨declaration, declared, legal⟩

/-- A root may be named by an underscore; and where a word is reserved with and without an underscore in
front, a type is named by a reserved word. -/
theorem not_declared_names_legal :
    (¬ ∀ (options : Options) (model : Model) (text : String) (declaration : Declaration),
      options.refusal? = none → emit model options = .ok text →
      declare options model = .ok declaration →
      ∀ scope path inner, Stands declaration scope path inner → Named inner.name.toList) ∧
    ¬ ∀ (options : Options) (model : Model) (text : String) (declaration : Declaration),
      options.refusal? = none → emit model options = .ok text →
      declare options model = .ok declaration →
      ∀ scope path inner, Stands declaration scope path inner →
        inner.name ∉ options.escaper.reserved := by
  constructor
  · intro always
    obtain ⟨c, member, other⟩ := always { Options.default with rootName := "_" } (.record ⟨"Model", []⟩)
      _ _ (by decide +kernel) rfl rfl _ _ _ .root
    exact other (List.mem_singleton.mp member)
  · intro always
    refine always { Options.default with escaper := ⟨["Owner", "_Owner"], "", ""⟩ }
      (.record ⟨"Model", [⟨"owner", .record ⟨"Owner", []⟩, false, false⟩]⟩) _ _ (by decide +kernel) rfl
      rfl _ _ _ (@Stands.nested _ _ _ _ _ _ 0 _ _ .root rfl rfl) ?_
    decide +kernel

end SwiftModel.Emission
