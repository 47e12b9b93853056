/- Where names lead in a text: each record declares the types of its properties and its key table,
and the innermost declaration of a name is the one that is meant. -/
import SwiftModel.Proofs.Emission.Clash
import SwiftModel.Proofs.Model.Within

namespace SwiftModel.Emission
open SwiftModel.Identifier

/-- What a text declares, by the indices of the properties that lead to it. -/
inductive Place
  | declaration (path : List Nat)
  | keyTable (path : List Nat)
deriving DecidableEq

/-- The names that are declared, the innermost first. A name that is not among them is the
library's. -/
abbrev Scope := List (String × Place)

def Declaration.name : Declaration → String
  | .record name _ _ => name
  | .enumeration name _ => name

/-- The types of properties, counted from an index on. -/
def nestedTypes (path : List Nat) (index : Nat) : List (Property Declaration) → Scope
  | [] => []
  | property :: properties =>
    match property.nested with
    | some nested =>
      (nested.name, .declaration (path ++ [index])) :: nestedTypes path (index + 1) properties
    | none => nestedTypes path (index + 1) properties

/-- What a record at a path declares. -/
def declaredTypes (path : List Nat) (properties : List (Property Declaration))
    (keyTable : Option (List Case)) : Scope :=
  nestedTypes path 0 properties ++ (takenNames keyTable).map fun name => (name, .keyTable path)

/-- A declaration stands at a path, within a scope. -/
inductive Stands (root : Declaration) : Scope → List Nat → Declaration → Prop
  | root : Stands root [(root.name, .declaration [])] [] root
  | nested {scope : Scope} {path : List Nat} {name : String}
      {properties : List (Property Declaration)} {keyTable : Option (List Case)} {index : Nat}
      {property : Property Declaration} {inner : Declaration} :
      Stands root scope path (.record name properties keyTable) →
      properties[index]? = some property → property.nested = some inner →
      Stands root (declaredTypes path properties keyTable ++ scope) (path ++ [index]) inner

def Options.typeNames (options : Options) (fields : List (Field Base)) : List String :=
  (options.nestedNames fields).filterMap id

/-- A record within another, the name that it is declared under, and the names of the types that
are declared around it. -/
inductive Options.Around (options : Options) (root : Record Base) :
    List String → String → Record Base → Prop
  | root : Around options root [options.rootName] options.rootName root
  | field {outer : List String} {parent name : String} {record inner : Record Base}
      {field : Field Base} {index : Nat} :
      Around options root outer parent record →
      record.fields[index]? = some field → field.base = .record inner →
      (options.nestedNames record.fields)[index]? = some (some name) →
      Around options root (options.typeNames record.fields ++ outer) name inner

/-- A scope declares names: these, and key tables beside them. -/
def Scope.Declares (scope : Scope) (names : List String) : Prop :=
  ∀ name, name ≠ keyTableName → (name ∈ scope.map Prod.fst ↔ name ∈ names)

section Drafts

variable {options : Options} {root : Record Base}

theorem declares_root (options : Options) (root : Record Base) :
    Scope.Declares [((draftRecord options options.rootName root).name, .declaration [])]
      [options.rootName] := by
  intro name other
  rw [draftRecord_eq]
  exact Iff.rfl

theorem Options.Around.within {outer : List String} {name : String} {record : Record Base}
    (h : options.Around root outer name record) : root.Within record := by
  induction h with
  | root => exact .self
  | field _ found same _ ih => exact .field ih (List.mem_of_getElem? found) same

/-- A record that is declared holds no record in which names clash. -/
theorem Options.Around.free
    (free : ∀ path clash, ¬ ClashAlong options options.rootName root path clash)
    {outer : List String} {name : String} {record : Record Base}
    (h : options.Around root outer name record) :
    ∀ path clash, ¬ ClashAlong options name record path clash := by
  induction h with
  | root => exact free
  | field _ found same declared ih =>
      exact fun path clash inside => ih _ clash (.within found same declared inside)

theorem nested_draftField (options : Options) (field : Field Base) (property : String) :
    (draftField options field property).nested.map Declaration.name =
      options.nestedName? field property := by
  obtain ⟨key, base, isArray, isOptional⟩ := field
  cases base with
  | record inner =>
      obtain ⟨name, fields⟩ := inner
      rfl
  | _ => rfl

theorem map_fst_nestedTypes (path : List Nat) (index : Nat) (fields : List (Field Base))
    (properties : List String) :
    (nestedTypes path index (List.zipWith (draftField options) fields properties)).map Prod.fst =
      (List.zipWith options.nestedName? fields properties).filterMap id := by
  induction fields generalizing index properties with
  | nil => rfl
  | cons field fields ih =>
      cases properties with
      | nil => rfl
      | cons property properties =>
          rw [List.zipWith_cons_cons, List.zipWith_cons_cons, List.filterMap_cons, nestedTypes,
            ← nested_draftField]
          cases (draftField options field property).nested with
          | none => exact ih (index + 1) properties
          | some nested => exact congrArg (List.cons nested.name) (ih (index + 1) properties)

theorem Scope.Declares.inside {scope : Scope} {outer : List String} (h : scope.Declares outer)
    (options : Options) (path : List Nat) (fields : List (Field Base)) (keyTable : Option (List Case)) :
    Scope.Declares (declaredTypes path (options.drafts fields) keyTable ++ scope)
      (options.typeNames fields ++ outer) := by
  intro name other
  have table : name ∉ takenNames keyTable := fun member => other (mem_takenNames.mp member).1
  rw [declaredTypes, Options.drafts, List.map_append, List.map_append, map_fst_nestedTypes, List.map_map,
    List.mem_append, List.mem_append, List.mem_append, h name other]
  have rows : name ∉ (takenNames keyTable).map (Prod.fst ∘ fun name => (name, Place.keyTable path)) := by
    rintro member
    obtain ⟨taken, inside, rfl⟩ := List.mem_map.mp member
    exact table inside
  rw [or_iff_left rows]
  rfl

theorem getElem?_nestedNames {fields : List (Field Base)} {index : Nat} {field : Field Base}
    {property : String} (hf : fields[index]? = some field)
    (hp : (options.properties fields)[index]? = some property) :
    (options.nestedNames fields)[index]? = some (options.nestedName? field property) :=
  List.getElem?_zipWith_eq_some.mpr ⟨field, property, hf, hp, rfl⟩

/-- What stands in a draft is the draft of a record within, or of a choice that a field of one
holds. -/
inductive Drafted (options : Options) (root : Record Base) (scope : Scope) : Declaration → Prop
  | record {outer : List String} {name : String} {record : Record Base} :
      options.Around root outer name record → scope.Declares outer →
      Drafted options root scope (draftRecord options name record)
  | choice {outer : List String} {parent name : String} {record : Record Base} {field : Field Base}
      {values : List String} :
      options.Around root outer parent record → field ∈ record.fields →
      field.base = .choice values →
      scope.Declares (options.typeNames record.fields ++ outer) →
      Drafted options root scope (declareChoice options name values)

theorem Drafted.exists_record {scope : Scope} {name : String}
    {properties : List (Property Declaration)} {keyTable : Option (List Case)}
    (h : Drafted options root scope (.record name properties keyTable)) :
    ∃ outer record, options.Around root outer name record ∧ scope.Declares outer ∧
      properties = options.drafts record.fields ∧
      keyTable = options.keyTable? (record.fields.map Field.key) := by
  generalize same : Declaration.record name properties keyTable = declaration at h
  cases h with
  | choice => cases same
  | record around declares =>
      rw [draftRecord_eq] at same
      cases same
      exact ⟨_, _, around, declares, rfl, rfl⟩

theorem Drafted.exists_choice {scope : Scope} {name : String} {cases : List Case}
    (h : Drafted options root scope (.enumeration name cases)) :
    ∃ outer parent record, options.Around root outer parent record ∧
      (∃ field ∈ record.fields, ∃ values, field.base = .choice values) ∧
      scope.Declares (options.typeNames record.fields ++ outer) := by
  generalize same : Declaration.enumeration name cases = declaration at h
  cases h with
  | choice around member held declares => exact ⟨_, _, _, around, ⟨_, member, _, held⟩, declares⟩
  | record around =>
      rw [draftRecord_eq] at same
      cases same

theorem Stands.drafted {scope : Scope} {path : List Nat} {declaration : Declaration}
    (h : Stands (draftRecord options options.rootName root) scope path declaration) :
    Drafted options root scope declaration := by
  induction h with
  | root => exact .record .root (declares_root options root)
  | @nested scope path name properties keyTable index property inner stands found held ih =>
      obtain ⟨outer, record, around, declares, rfl, rfl⟩ := ih.exists_record
      obtain ⟨field, property, hf, hp, rfl⟩ := getElem?_drafts.mp found
      have inside := declares.inside options path record.fields
        (options.keyTable? (record.fields.map Field.key))
      have declared := getElem?_nestedNames hf hp
      obtain ⟨key, base, isArray, isOptional⟩ := field
      cases base with
      | record inner =>
          cases held
          exact .record (.field around hf rfl declared) inside
      | choice values =>
          cases held
          exact .choice around (List.mem_of_getElem? hf) rfl inside
      | _ => cases held

theorem exists_around (options : Options) {record : Record Base} (h : root.Within record) :
    ∃ outer name, options.Around root outer name record := by
  induction h with
  | self => exact ⟨_, _, .root⟩
  | field _ member same ih =>
      obtain ⟨outer, parent, around⟩ := ih
      obtain ⟨index, found⟩ := List.getElem?_of_mem member
      obtain ⟨property, hp⟩ := exists_property options found
      have declared := getElem?_nestedNames found hp
      rw [nestedName?_eq_some.mpr ⟨same ▸ rfl, rfl⟩] at declared
      exact ⟨_, _, .field around found same declared⟩

theorem Options.Around.stands {outer : List String} {name : String} {record : Record Base}
    (h : options.Around root outer name record) :
    ∃ scope path, scope.Declares outer ∧
      Stands (draftRecord options options.rootName root) scope path
        (draftRecord options name record) := by
  induction h with
  | root => exact ⟨_, _, declares_root options root, .root⟩
  | @field outer parent name record inner field index around found same declared ih =>
      obtain ⟨scope, path, declares, stands⟩ := ih
      obtain ⟨property, hp⟩ := exists_property options found
      rw [getElem?_nestedNames found hp, Option.some.injEq, nestedName?_eq_some] at declared
      rw [draftRecord_eq options parent record] at stands
      refine ⟨_, _, declares.inside options path record.fields _,
        .nested stands (getElem?_drafts.mpr ⟨field, property, found, hp, rfl⟩) ?_⟩
      obtain ⟨key, base, isArray, isOptional⟩ := field
      cases same
      rw [← declared.2]
      rfl

end Drafts

end SwiftModel.Emission
