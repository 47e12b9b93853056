/- The properties of a record and the types declared beside them: when no two of them share a
name. -/
import SwiftModel.Proofs.Emission.Arranged
import SwiftModel.Proofs.Emission.Scope
import SwiftModel.Proofs.Identifier.Capitals
import SwiftModel.Proofs.Inference.Unsigned

namespace SwiftModel.Emission
open SwiftModel.Identifier SwiftModel.Inference

/-- In a record that is declared, no type has the name of another property than its own, and no
property has the name of the key table. -/
structure Apart (properties : List (Property Declaration)) (keyTable : Option (List Case)) :
    Prop where
  types : ∀ {i j : Nat} {property other : Property Declaration} {nested : Declaration},
    properties[i]? = some property → property.nested = some nested →
    properties[j]? = some other → i ≠ j → nested.name ≠ other.name
  table : keyTable.isSome = true → ∀ property ∈ properties, property.name ≠ keyTableName

/-- The same of the fields that a record is declared with: no field's type is named as the
identifier of another, and below a key table no key is spelled as its name. -/
structure Options.KeepsApart (options : Options) (fields : List (Field Base)) : Prop where
  types : ∀ {i j : Nat} {name : String}, (options.nestedNames fields)[i]? = some (some name) →
    (options.properties fields)[j]? = some name → i = j
  table : options.WritesKeyTable fields →
    ∀ field ∈ fields, options.propertyNaming.identifier field.key ≠ keyTableName

section Drafts

variable {options : Options} {fields : List (Field Base)}

/-- Underscores neither make the name of the key table nor take it away. -/
theorem keyTableName_mem_properties :
    keyTableName ∈ options.properties fields ↔
      ∃ field ∈ fields, options.propertyNaming.identifier field.key = keyTableName := by
  rw [Options.properties, Options.identifiers, mem_distinct_iff (by decide), List.map_map,
    List.mem_map]
  exact Iff.rfl

theorem exists_property_named {j : Nat} {name : String}
    (h : (options.properties fields)[j]? = some name) : ∃ property : Property Declaration,
      (options.drafts fields)[j]? = some property ∧
        property.name = name := by
  have bound : j < fields.length := by
    rw [← length_properties options fields]
    exact (List.getElem?_eq_some_iff.mp h).1
  exact ⟨_, getElem?_drafts.mpr ⟨_, name, List.getElem?_eq_getElem bound, h, rfl⟩, rfl⟩

theorem exists_nested_named {i : Nat} {name : String}
    (h : (options.nestedNames fields)[i]? = some (some name)) :
    ∃ (property : Property Declaration) (nested : Declaration),
      (options.drafts fields)[i]? = some property ∧
        property.nested = some nested ∧ nested.name = name := by
  obtain ⟨field, property, hf, hp, same⟩ := List.getElem?_zipWith_eq_some.mp h
  rw [← nested_draftField, Option.map_eq_some_iff] at same
  obtain ⟨nested, held, named⟩ := same
  exact ⟨_, nested, getElem?_drafts.mpr ⟨field, property, hf, hp, rfl⟩, held, named⟩

theorem apart_iff_keepsApart :
    Apart (options.drafts fields)
        (options.keyTable? (fields.map Field.key)) ↔ options.KeepsApart fields := by
  constructor
  · intro apart
    constructor
    · intro i j name declared named
      obtain ⟨property, nested, found, held, ofType⟩ := exists_nested_named declared
      obtain ⟨other, here, ofProperty⟩ := exists_property_named named
      by_cases same : i = j
      · exact same
      · exact absurd (ofType.trans ofProperty.symm) (apart.types found held here same)
    · intro writes field member spelled
      obtain ⟨j, named⟩ :=
        List.getElem?_of_mem (keyTableName_mem_properties.mpr ⟨field, member, spelled⟩)
      obtain ⟨property, found, same⟩ := exists_property_named named
      exact apart.table (isSome_keyTable?.mpr writes) property (List.mem_of_getElem? found) same
  · intro keeps
    constructor
    · intro i j property other nested found held here different same
      obtain ⟨field, name, hf, hp, rfl⟩ := getElem?_drafts.mp found
      obtain ⟨otherField, otherName, -, named, rfl⟩ := getElem?_drafts.mp here
      have declared := getElem?_nestedNames hf hp
      rw [← nested_draftField, held] at declared
      exact different (keeps.types declared (same ▸ named))
    · intro table property member same
      obtain ⟨field, -, name, inside, rfl⟩ := exists_field member
      rw [show name = keyTableName from same] at inside
      obtain ⟨field, ofRecord, spelled⟩ := keyTableName_mem_properties.mp inside
      exact keeps.table (isSome_keyTable?.mp table) field ofRecord spelled

theorem not_startsSmall_declaredName {property : String} (h : StartsSmall property.toList)
    (isArray : Bool) : ¬ StartsSmall (options.declaredName property isArray).toList := by
  rw [Options.declaredName, Escaper.avoidReserved]
  split
  · rw [String.toList_append]
    rintro ⟨c, cs, same, small⟩
    cases (List.cons.inj same).1
    cases small
  · exact not_startsSmall_nestedTypeName options.typeNaming h _

theorem not_startsSmall_keyTableName : ¬ StartsSmall keyTableName.toList := by
  rintro ⟨c, cs, same, small⟩
  cases (List.cons.inj same).1
  cases small

/-- Small letters in front of all identifiers keep them apart from the types. -/
theorem keepsApart_of_startsSmall
    (small : ∀ name ∈ options.properties fields, StartsSmall name.toList) :
    options.KeepsApart fields := by
  constructor
  · intro i j name declared named
    obtain ⟨field, property, -, hp, same⟩ := List.getElem?_zipWith_eq_some.mp declared
    obtain ⟨nested, rfl⟩ := nestedName?_eq_some.mp same
    rw [fieldName_of_isNested property nested] at named
    exact absurd (small _ (List.mem_of_getElem? named))
      (not_startsSmall_declaredName (small property (List.mem_of_getElem? hp)) field.isArray)
  · intro _ field member spelled
    exact not_startsSmall_keyTableName
      (small keyTableName (keyTableName_mem_properties.mpr ⟨field, member, spelled⟩))

end Drafts

/-- In every record that the text of a model declares, properties and types are named apart, exactly
if the fields of every record in the model keep them apart; and they are, in a record whose
identifiers all begin with a small letter. -/
theorem members_apart {options : Options} (valid : options.refusal? = none) {record : Record Base}
    {text : String} (emitted : emit (.record record) options = .ok text) :
    ∃ declaration, declare options (.record record) = .ok declaration ∧
      text = options.text declaration ∧
      ((∀ scope path name properties keyTable,
          Stands declaration scope path (.record name properties keyTable) →
            Apart properties keyTable) ↔
        ∀ inner, (options.arranged record).Within inner → options.KeepsApart inner.fields) ∧
      ∀ scope path name properties keyTable,
        Stands declaration scope path (.record name properties keyTable) →
          (∀ property ∈ properties, StartsSmall property.name.toList) →
            Apart properties keyTable := by
  obtain ⟨declared, rfl⟩ := (emit_eq_ok valid).mp emitted
  refine ⟨_, declared, rfl, ⟨?_, ?_⟩, ?_⟩
  · intro apart inner within
    obtain ⟨outer, name, around⟩ := exists_around options within
    obtain ⟨scope, path, -, stands⟩ := around.stands
    rw [draftRecord_eq options name inner] at stands
    exact apart_iff_keepsApart.mp (apart _ _ _ _ _ stands)
  · intro keeps scope path name properties keyTable stands
    obtain ⟨outer, inner, around, -, rfl, rfl⟩ := stands.drafted.exists_record
    exact apart_iff_keepsApart.mpr (keeps inner around.within)
  · intro scope path name properties keyTable stands small
    obtain ⟨outer, inner, -, -, rfl, rfl⟩ := stands.drafted.exists_record
    refine apart_iff_keepsApart.mpr (keepsApart_of_startsSmall ?_)
    intro property member
    obtain ⟨j, named⟩ := List.getElem?_of_mem member
    obtain ⟨other, found, rfl⟩ := exists_property_named named
    exact small other (List.mem_of_getElem? found)

/-- A record under a key with a small letter in front. -/
theorem members_apart_owner :
    ∃ declaration, declare Options.default (.record ⟨"Model",
        [⟨"owner_id", .record ⟨"OwnerId", []⟩, false, false⟩]⟩) = .ok declaration ∧
      ∀ scope path name properties keyTable,
        Stands declaration scope path (.record name properties keyTable) →
          (∀ property ∈ properties, StartsSmall property.name.toList) →
            Apart properties keyTable := by
  have valid : Options.default.refusal? = none := by decide
  obtain ⟨declaration, declared, -, -, small⟩ := @members_apart _ valid ⟨"Model",
    [⟨"owner_id", .record ⟨"OwnerId", []⟩, false, false⟩]⟩ _ rfl
  exact ⟨declaration, declared, small⟩

/-- The type below `a` is named as the property of the key `A`, and the key `CodingKeys` as the key
table that another key asks for. -/
theorem not_members_apart :
    (¬ ∀ (options : Options) (record : Record Base) (text : String) (declaration : Declaration),
      options.refusal? = none → Inferred record → emit (.record record) options = .ok text →
      declare options (.record record) = .ok declaration →
      ∀ scope path name properties keyTable,
        Stands declaration scope path (.record name properties keyTable) →
        ∀ (i j : Nat) property other nested, properties[i]? = some property →
          property.nested = some nested → properties[j]? = some other → i ≠ j →
          nested.name ≠ other.name) ∧
    ¬ ∀ (options : Options) (record : Record Base) (text : String) (declaration : Declaration),
      options.refusal? = none → Inferred record → emit (.record record) options = .ok text →
      declare options (.record record) = .ok declaration →
      ∀ scope path name properties keyTable,
        Stands declaration scope path (.record name properties keyTable) →
        keyTable.isSome = true → ∀ property ∈ properties, property.name ≠ keyTableName := by
  have valid : Options.default.refusal? = none := by decide
  constructor
  · intro always
    have inferred : Inferred ⟨"Model",
        [⟨"a", .record ⟨"A", []⟩, false, false⟩, ⟨"A", .string, false, false⟩]⟩ :=
      @Inferred.sample _ true (.object [("a", .object []), ("A", .string "x")]) rfl
    exact always .default _ _ _ valid inferred rfl rfl _ _ _ _ _ .root 0 1 _ _ _ rfl rfl rfl
      (by decide) rfl
  · intro always
    have inferred : Inferred ⟨"Model",
        [⟨"CodingKeys", .string, false, false⟩, ⟨"a_b", .string, false, false⟩]⟩ :=
      @Inferred.sample _ true (.object [("CodingKeys", .string "x"), ("a_b", .string "y")]) rfl
    exact always .default _ _ _ valid inferred rfl rfl _ _ _ _ _ .root rfl _ (.head _) rfl

end SwiftModel.Emission
