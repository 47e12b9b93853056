/- What is inferred from values that differ in the order of members differs in the order of fields. -/
import SwiftModel.Proofs.Inference.Described
import SwiftModel.Proofs.Inference.SampleFits
import SwiftModel.Proofs.Json.Reordered
import SwiftModel.Proofs.Model.Alike

namespace SwiftModel.Inference
open SwiftModel.Identifier SwiftModel.Json

section Samples

variable {detectUuid : Bool} {value moved : Json}

theorem isArray_of_reordered (h : value.Reordered moved) : isArray value = isArray moved := by
  cases h <;> rfl

theorem alike_sampleFields {members order others : List (String × Json)}
    (distinct : (members.map Prod.fst).Nodup) (perm : members.Perm order)
    (corresponding : List.Forall₂ Corresponds order others)
    (bases : ∀ pair ∈ order.zip others, Base.Alike true
      (sampleBase detectUuid pair.1.1 pair.1.2) (sampleBase detectUuid pair.1.1 pair.2.2))
    (name name' : String) : Base.Alike true (.record ⟨name, sampleFields detectUuid members⟩)
      (.record ⟨name', sampleFields detectUuid others⟩) := by
  rw [sampleFields_eq_map, sampleFields_eq_map]
  refine .of_perm ?_ (perm.map _) ?_ name name'
  · rw [List.map_map]
    exact distinct
  · rw [List.forall₂_map_left_iff, List.forall₂_map_right_iff]
    apply List.forall₂_iff_zip.mpr
    refine ⟨corresponding.length_eq, ?_⟩
    intro member other paired
    have pair := List.forall₂_zip corresponding paired
    have base := bases (member, other) paired
    refine ⟨⟨pair.key, isArray_of_reordered pair.value, rfl⟩, ?_⟩
    rw [FieldType.field, FieldType.field, sampleType, sampleType, ← pair.key]
    exact base

theorem nil_or_cons {items others : List Json} (lengths : items.length = others.length) :
    (items = [] ∧ others = []) ∨ ∃ first other rest rest',
      items = first :: rest ∧ others = other :: rest' := by
  cases items with
  | nil => exact .inl ⟨rfl, List.length_eq_zero_iff.mp lengths.symm⟩
  | cons first rest =>
      cases others with
      | nil => cases lengths
      | cons other rest' => exact .inr ⟨first, other, rest, rest', rfl, rfl⟩

/-- By induction on how the values are alike. A field holds what it held before its record's fields
were moved, and items stay in their order, so that one first item stands for the array in both. -/
theorem alike_sampleBase (h : value.Reordered moved) (distinct : value.DistinctKeys) (key : String) :
    Base.Alike true (sampleBase detectUuid key value) (sampleBase detectUuid key moved) := by
  induction h generalizing key with
  | same => exact .same _
  | array lengths inside ih =>
      obtain ⟨rfl, rfl⟩ | ⟨first, other, items, others, rfl, rfl⟩ := nil_or_cons lengths
      · exact .same _
      · have here := distinct.items first List.mem_cons_self
        exact ih (first, other) List.mem_cons_self here key
  | @object members order others perm keys inside ih =>
      refine alike_sampleFields distinct.nodup perm (corresponds_of_zip keys inside) ?_ _ _
      intro pair paired
      have member := perm.mem_iff.mpr (List.of_mem_zip paired).1
      exact ih pair paired (distinct.members pair.1 member) pair.1.1

theorem tallies_sampleRecord (h : value.Reordered moved) (distinct : value.DistinctKeys) :
    Tallies (fun record other => Base.Alike true (.record record) (.record other))
      (sampleRecord detectUuid value) (sampleRecord detectUuid moved) := by
  induction h with
  | same value =>
      cases sampleRecord detectUuid value with
      | error fault => exact .error fault
      | ok record => exact .ok (.same _)
  | array lengths inside ih =>
      obtain ⟨rfl, rfl⟩ | ⟨first, other, items, others, rfl, rfl⟩ := nil_or_cons lengths
      · exact .error _
      · have here := distinct.items first List.mem_cons_self
        exact ih (first, other) List.mem_cons_self here
  | @object members order others perm keys inside ih =>
      refine .ok (alike_sampleFields distinct.nodup perm (corresponds_of_zip keys inside) ?_ _ _)
      intro pair paired
      have member := perm.mem_iff.mpr (List.of_mem_zip paired).1
      exact alike_sampleBase (inside pair paired) (distinct.members pair.1 member) pair.1.1

end Samples

/-! What the keywords of a node say is the same wherever its members stand. -/

section Keywords

variable {node moved value : Json} {keyword : Keyword}

theorem exists_keyword? (h : node.Reordered moved) (distinct : node.DistinctKeys)
    (found : keyword? keyword node = some value) :
    ∃ other, keyword? keyword moved = some other ∧ value.Reordered other := by
  have both := h.member? distinct keyword.name
  rw [← keyword?, found] at both
  generalize there : moved.member? keyword.name = found' at both
  cases both with
  | some related => exact ⟨_, there, related⟩

theorem HasType.reordered {type : NodeType} (is : HasType type node) (h : node.Reordered moved)
    (distinct : node.DistinctKeys) : HasType type moved := by
  obtain ⟨other, found, related⟩ := exists_keyword? h distinct is
  rw [HasType, found, related.eq_of_scalar (by simp [kind]) (by simp [kind])]

theorem eq_of_texts {texts : List String} (h : (Json.array (texts.map .string)).Reordered moved) :
    moved = .array (texts.map .string) := by
  obtain ⟨others, rfl, inside⟩ := h.exists_items
  have same : List.Forall₂ (· = ·) (texts.map Json.string) others := by
    apply List.forall₂_iff_zip.mpr
    refine ⟨inside.length_eq, ?_⟩
    intro item other paired
    obtain ⟨text, -, rfl⟩ := List.mem_map.mp (List.of_mem_zip paired).1
    exact ((List.forall₂_zip inside paired).eq_of_scalar (by simp [kind]) (by simp [kind])).symm
  rw [List.forall₂_eq_eq_eq] at same
  rw [same]

theorem keyword?_texts {texts : List String} (h : node.Reordered moved) (distinct : node.DistinctKeys)
    (found : keyword? keyword node = some (.array (texts.map .string))) :
    keyword? keyword moved = some (.array (texts.map .string)) := by
  obtain ⟨other, found', related⟩ := exists_keyword? h distinct found
  rw [found', eq_of_texts related]

theorem isTexts_of_reordered (h : node.Reordered moved) (distinct : node.DistinctKeys)
    (texts : ∀ value, keyword? keyword node = some value → IsTexts value) :
    ∀ value, keyword? keyword moved = some value → IsTexts value := by
  intro value found
  obtain ⟨other, found', related⟩ := exists_keyword? h.symm (h.distinctKeys distinct) found
  obtain ⟨listed, rfl⟩ := texts other found'
  exact ⟨listed, eq_of_texts related.symm⟩

theorem string_mem_of_reordered {items others : List Json} {text : String}
    (inside : List.Forall₂ Json.Reordered items others) (member : .string text ∈ items) :
    .string text ∈ others := by
  induction inside with
  | nil => cases member
  | @cons item other _ _ first _ ih =>
      rcases List.mem_cons.mp member with rfl | later
      · rw [first.eq_of_scalar (by simp [kind]) (by simp [kind])]
        exact List.mem_cons_self
      · exact List.mem_cons_of_mem other (ih later)

theorem Requires.reordered {key : String} (required : Requires node key) (h : node.Reordered moved)
    (distinct : node.DistinctKeys) : Requires moved key := by
  obtain ⟨keys, found, listed⟩ := required
  obtain ⟨other, found', related⟩ := exists_keyword? h distinct found
  obtain ⟨others, rfl, inside⟩ := related.exists_items
  exact ⟨others, found', string_mem_of_reordered inside listed⟩

theorem isNonnegativeBound_of_reordered (h : node.Reordered moved) (distinct : node.DistinctKeys)
    (bound : String) : isNonnegativeBound bound node = isNonnegativeBound bound moved := by
  have both := h.member? distinct bound
  rw [isNonnegativeBound, isNonnegativeBound]
  generalize node.member? bound = found, moved.member? bound = found' at both
  cases both with
  | none => rfl
  | some related => cases related <;> rfl

theorem integerBase_of_reordered (preferUnsigned : Bool) (h : node.Reordered moved)
    (distinct : node.DistinctKeys) :
    integerBase preferUnsigned node = integerBase preferUnsigned moved := by
  rw [integerBase, integerBase, isNonnegativeBound_of_reordered h distinct,
    isNonnegativeBound_of_reordered h distinct]

end Keywords

/-- By induction on the grammar: each of its rules asks for keywords, and finds them in the node with
its members moved. -/
theorem WellFormed.reordered {node moved : Json} (wellFormed : WellFormed node)
    (h : node.Reordered moved) (distinct : node.DistinctKeys) : WellFormed moved := by
  induction wellFormed generalizing moved with
  | @object node properties is found inside texts ih =>
      obtain ⟨other, found', related⟩ := exists_keyword? h distinct found
      obtain ⟨order, others, rfl, perm, corresponding⟩ := related.exists_members
      refine .object (is.reordered h distinct) found' ?_ (isTexts_of_reordered h distinct texts)
      intro property there
      obtain ⟨pair, paired, rfl⟩ := exists_mem_zip corresponding.length_eq there
      have member := perm.mem_iff.mpr (List.of_mem_zip paired).1
      exact ih pair.1 member (List.forall₂_zip corresponding paired).value
        ((distinct.member? found).members pair.1 member)
  | array is found isObject inside ih =>
      obtain ⟨items, found', related⟩ := exists_keyword? h distinct found
      refine .array (is.reordered h distinct) found' ?_ (ih related (distinct.member? found))
      cases related <;> exact isObject
  | integer is => exact .integer (is.reordered h distinct)
  | string is texts => exact .string (is.reordered h distinct) (isTexts_of_reordered h distinct texts)
  | boolean is => exact .boolean (is.reordered h distinct)

theorem succeeds_of_reordered {preferUnsigned : Bool} {root moved : Json} (h : root.Reordered moved)
    (distinct : root.DistinctKeys) (succeeds : ∃ record, schemaRecord preferUnsigned root = .ok record) :
    ∃ record, schemaRecord preferUnsigned moved = .ok record := by
  obtain ⟨wellFormed, is⟩ := exists_schemaRecord_iff.mp succeeds
  exact exists_schemaRecord_iff.mpr ⟨wellFormed.reordered h distinct, is.reordered h distinct⟩

/-! The fields of a node whose members are moved are its fields, moved as its properties are. -/

/-- A property with the field that it is declared as. The base of the field is like every base that the
property has with the members of what describes it moved. -/
structure Settled (required : String → Prop) (preferUnsigned : Bool) (property : String × Json)
    (field : Field Base) : Prop where
  declared : Declared required property field
  distinct : property.2.DistinctKeys
  base : ∀ moved, property.2.Reordered moved → ∀ other,
    HasBase preferUnsigned property.1 moved other → field.base.Alike true other

/-- A property with the field that it is declared as. -/
structure Realized (required : String → Prop) (preferUnsigned : Bool) (property : String × Json)
    (field : Field Base) : Prop where
  declared : Declared required property field
  base : HasBase preferUnsigned property.1 property.2 field.base

section Fields

variable {required : String → Prop} {preferUnsigned : Bool}

theorem keys_of_settled {properties : List (String × Json)} {fields : List (Field Base)}
    (settled : List.Forall₂ (Settled required preferUnsigned) properties fields) :
    fields.map Field.key = properties.map Prod.fst := by
  induction settled with
  | nil => rfl
  | cons first _ ih => rw [List.map_cons, List.map_cons, first.declared.key, ih]

theorem alike_field {property other : String × Json} {field field' : Field Base}
    (settled : Settled required preferUnsigned property field) (pair : Corresponds property other)
    (realized : Realized required preferUnsigned other field') : field.Alike true field' := by
  have declared := settled.declared
  have declared' := realized.declared
  have array : HasType .array property.2 ↔ HasType .array other.2 :=
    ⟨fun is => is.reordered pair.value settled.distinct,
      fun is => is.reordered pair.value.symm (pair.value.distinctKeys settled.distinct)⟩
  refine ⟨⟨?_, ?_, ?_⟩, ?_⟩
  · rw [declared.key, declared'.key, pair.key]
  · exact Bool.eq_iff_iff.mpr (declared.isArray.trans (array.trans declared'.isArray.symm))
  · rw [Bool.eq_iff_iff, declared.isOptional, declared'.isOptional, pair.key]
  · exact settled.base other.2 pair.value field'.base (pair.key ▸ realized.base)

theorem alike_fields {order others : List (String × Json)} {fields fields' : List (Field Base)}
    (settled : List.Forall₂ (Settled required preferUnsigned) order fields)
    (corresponding : List.Forall₂ Corresponds order others)
    (realized : List.Forall₂ (Realized required preferUnsigned) others fields') :
    List.Forall₂ (Field.Alike true) fields fields' := by
  induction settled generalizing others fields' with
  | nil =>
      cases corresponding
      cases realized
      exact .nil
  | cons first _ ih =>
      cases corresponding with
      | cons pair corresponding =>
          cases realized with
          | cons second realized => exact .cons (alike_field first pair second) (ih corresponding realized)

theorem alike_of_settled {node moved : Json} {properties : List (String × Json)}
    {fields fields' : List (Field Base)} (h : node.Reordered moved) (distinct : node.DistinctKeys)
    (found : keyword? .properties node = some (.object properties))
    (settled : List.Forall₂ (Settled (Requires node) preferUnsigned) properties fields)
    (described : HasFields preferUnsigned moved fields') (name name' : String) :
    Base.Alike true (.record ⟨name, fields⟩) (.record ⟨name', fields'⟩) := by
  obtain ⟨properties', found', declared', bases'⟩ := described
  obtain ⟨other, again, related⟩ := exists_keyword? h distinct found
  cases again.symm.trans found'
  obtain ⟨order, others, ⟨⟩, perm, corresponding⟩ := related.exists_members
  have required : Requires moved = Requires node := by
    funext key
    apply propext
    exact ⟨fun there => there.reordered h.symm (h.distinctKeys distinct),
      fun here => here.reordered h distinct⟩
  -- fields stand as their properties do, and so are moved as these are
  obtain ⟨arranged, placed, back⟩ := List.perm_comp_forall₂ perm.symm settled
  refine .of_perm ?_ back.symm (alike_fields placed corresponding ?_) name name'
  · rw [keys_of_settled settled]
    exact (distinct.member? found).nodup
  · rw [required] at declared'
    exact List.forall₂_iff_zip.mpr ⟨declared'.length_eq, fun paired =>
      ⟨List.forall₂_zip declared' paired, bases' _ paired⟩⟩

theorem settled_of_declared {properties : List (String × Json)} {fields : List (Field Base)}
    (declared : List.Forall₂ (Declared required) properties fields)
    (distinct : DistinctKeys (.object properties))
    (bases : ∀ pair ∈ properties.zip fields, ∀ moved, pair.1.2.Reordered moved → ∀ other,
      HasBase preferUnsigned pair.1.1 moved other → pair.2.base.Alike true other) :
    List.Forall₂ (Settled required preferUnsigned) properties fields := by
  apply List.forall₂_iff_zip.mpr
  refine ⟨declared.length_eq, ?_⟩
  intro property field paired
  have member : property ∈ properties := (List.of_mem_zip paired).1
  exact ⟨List.forall₂_zip declared paired, distinct.members property member,
    bases (property, field) paired⟩

end Fields

/-- By induction on how the node has its base: the rule by which it has one is the rule by which the
node with its members moved has another. -/
theorem HasBase.alike {preferUnsigned : Bool} {key : String} {node moved : Json} {base other : Base}
    (hasBase : HasBase preferUnsigned key node base) (h : node.Reordered moved)
    (distinct : node.DistinctKeys) (hasBase' : HasBase preferUnsigned key moved other) :
    base.Alike true other := by
  induction hasBase generalizing moved other with
  | items is found _ ih =>
      have there := is.reordered h distinct
      obtain ⟨items, found', related⟩ := exists_keyword? h distinct found
      cases hasBase' with
      | items _ again inside =>
          cases found'.symm.trans again
          exact ih related (distinct.member? found) inside
      | record is' | integer is' | string is' | choice is' | boolean is' =>
          exact absurd (there.unique is') (by decide)
  | record is found declared inside ih =>
      have there := is.reordered h distinct
      cases hasBase' with
      | record _ found' declared' bases =>
          have members := distinct.member? found
          have settled := settled_of_declared declared members fun pair paired moved related other =>
            ih pair paired related (members.members pair.1 (List.of_mem_zip paired).1)
          exact alike_of_settled h distinct found settled ⟨_, found', declared', bases⟩ _ _
      | items is' | integer is' | string is' | choice is' | boolean is' =>
          exact absurd (there.unique is') (by decide)
  | integer is =>
      have there := is.reordered h distinct
      cases hasBase' with
      | integer _ =>
          rw [integerBase_of_reordered preferUnsigned h distinct]
          exact .same _
      | items is' | record is' | string is' | choice is' | boolean is' =>
          exact absurd (there.unique is') (by decide)
  | string is free =>
      have there := is.reordered h distinct
      cases hasBase' with
      | string _ _ => exact .same _
      | choice _ nonempty listed =>
          have listed' := keyword?_texts h.symm (h.distinctKeys distinct) listed
          exact absurd (free _ listed') (by simpa using nonempty)
      | items is' | record is' | integer is' | boolean is' =>
          exact absurd (there.unique is') (by decide)
  | choice is nonempty listed =>
      have there := is.reordered h distinct
      have listed' := keyword?_texts h distinct listed
      cases hasBase' with
      | choice _ _ again =>
          have texts := texts?_eq_some.mpr (Option.some.inj (listed'.symm.trans again))
          rw [texts?_eq_some.mpr rfl] at texts
          rw [Option.some.inj texts]
          exact .same _
      | string _ free => exact absurd (free _ listed') (by simpa using nonempty)
      | items is' | record is' | integer is' | boolean is' =>
          exact absurd (there.unique is') (by decide)
  | boolean is =>
      have there := is.reordered h distinct
      cases hasBase' with
      | boolean _ => exact .same _
      | items is' | record is' | integer is' | string is' | choice is' =>
          exact absurd (there.unique is') (by decide)

theorem alike_schemaRecord {preferUnsigned : Bool} {root moved : Json} {record other : Record Base}
    (h : root.Reordered moved) (distinct : root.DistinctKeys)
    (inferred : schemaRecord preferUnsigned root = .ok record)
    (inferred' : schemaRecord preferUnsigned moved = .ok other) :
    Base.Alike true (.record record) (.record other) := by
  have sound := (nodeType_sound preferUnsigned).2.1
  obtain ⟨fields, -, inside, rfl⟩ := schemaRecord_eq_ok inferred
  obtain ⟨fields', -, inside', rfl⟩ := schemaRecord_eq_ok inferred'
  obtain ⟨properties, found, declared, bases⟩ := (sound [] root fields inside).2
  have members := distinct.member? found
  have settled := settled_of_declared declared members fun pair paired moved related other =>
    (bases pair paired).alike related (members.members pair.1 (List.of_mem_zip paired).1)
  exact alike_of_settled h distinct found settled (sound [] moved fields' inside').2 _ _

end SwiftModel.Inference
