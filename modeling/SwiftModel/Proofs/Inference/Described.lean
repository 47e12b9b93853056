/- Inference succeeds on the schemas of the grammar and on no others, and the record that it returns
has, at every depth, the fields that the schema declares there. -/
import Mathlib.Data.List.Forall2
import SwiftModel.Proofs.Inference.Grammar

namespace SwiftModel.Inference
open SwiftModel.Identifier

/-- A field as its owner declares it, its base apart. -/
structure Declared (required : String → Prop) (property : String × Json) (field : Field Base) :
    Prop where
  key : field.key = property.1
  isOptional : field.isOptional = true ↔ ¬ required property.1
  isArray : field.isArray = true ↔ HasType .array property.2

/-- The base that a node has under a key. It depends on nothing around the node, and for an array
it is the base of the innermost items. -/
inductive HasBase (preferUnsigned : Bool) : String → Json → Base → Prop
  | items {key : String} {node items : Json} {base : Base} : HasType .array node →
      keyword? .items node = some items → HasBase preferUnsigned key items base →
      HasBase preferUnsigned key node base
  | record {key : String} {node : Json} {properties : List (String × Json)}
      {fields : List (Field Base)} : HasType .object node →
      keyword? .properties node = some (.object properties) →
      List.Forall₂ (Declared (Requires node)) properties fields →
      (∀ pair ∈ properties.zip fields, HasBase preferUnsigned pair.1.1 pair.1.2 pair.2.base) →
      HasBase preferUnsigned key node (.record ⟨typeNameForKey key, fields⟩)
  | integer {key : String} {node : Json} : HasType .integer node →
      HasBase preferUnsigned key node (integerBase preferUnsigned node)
  | string {key : String} {node : Json} : HasType .string node →
      (∀ value, keyword? .enum node = some value → value = .array []) →
      HasBase preferUnsigned key node .string
  | choice {key : String} {node : Json} {values : List String} : HasType .string node →
      values ≠ [] → keyword? .enum node = some (.array (values.map .string)) →
      HasBase preferUnsigned key node (.choice values.eraseDups)
  | boolean {key : String} {node : Json} : HasType .boolean node →
      HasBase preferUnsigned key node .boolean

/-- The fields of a node: one for each of its properties, in their order. -/
def HasFields (preferUnsigned : Bool) (node : Json) (fields : List (Field Base)) : Prop :=
  ∃ properties, keyword? .properties node = some (.object properties) ∧
    List.Forall₂ (Declared (Requires node)) properties fields ∧
    ∀ pair ∈ properties.zip fields, HasBase preferUnsigned pair.1.1 pair.1.2 pair.2.base

structure Describes (preferUnsigned : Bool) (key : String) (node : Json) (type : FieldType) :
    Prop where
  base : HasBase preferUnsigned key node type.base
  isArray : type.isArray = true ↔ HasType .array node
  isOptional : type.isOptional = false

section Sound

variable {preferUnsigned : Bool} {key : String} {path : List String} {node : Json}

theorem Describes.plain {type : NodeType} {base : Base} (is : HasType type node)
    (other : type ≠ .array) (h : HasBase preferUnsigned key node base) :
    Describes preferUnsigned key node (.plain base) := by
  refine ⟨h, ?_, rfl⟩
  constructor
  · intro array
    cases array
  · intro array
    exact absurd (is.unique array) other

theorem hasBase_of_textBase {base : Base} (is : HasType .string node)
    (h : textBase path node = .ok base) : HasBase preferUnsigned key node base := by
  obtain ⟨-, ⟨rfl, free⟩ | ⟨values, nonempty, listed, rfl⟩⟩ := textBase_eq_ok h
  · exact .string is free
  · exact .choice is nonempty listed

end Sound

/-- By recursion on the node. A property is required if its owner lists it, whatever the node of the
property says, so the list of the owner is carried along the properties. -/
theorem nodeType_sound (preferUnsigned : Bool) :
    (∀ key path node type, nodeType preferUnsigned key path node = .ok type →
      WellFormed node ∧ Describes preferUnsigned key node type) ∧
    (∀ path node fields, nodeFields preferUnsigned path node = .ok fields →
      (HasType .object node → WellFormed node) ∧ HasFields preferUnsigned node fields) ∧
    ∀ path required properties fields,
      propertyFields preferUnsigned path required properties = .ok fields →
        (∀ property ∈ properties, WellFormed property.2) ∧
          List.Forall₂ (Declared (· ∈ required)) properties fields ∧
          ∀ pair ∈ properties.zip fields,
            HasBase preferUnsigned pair.1.1 pair.1.2 pair.2.base := by
  refine nodeType.mutual_induct
    (fun key path node => ∀ type, nodeType preferUnsigned key path node = .ok type →
      WellFormed node ∧ Describes preferUnsigned key node type)
    (fun path node => ∀ fields, nodeFields preferUnsigned path node = .ok fields →
      (HasType .object node → WellFormed node) ∧ HasFields preferUnsigned node fields)
    (fun path required properties => ∀ fields,
      propertyFields preferUnsigned path required properties = .ok fields →
        (∀ property ∈ properties, WellFormed property.2) ∧
          List.Forall₂ (Declared (· ∈ required)) properties fields ∧
          ∀ pair ∈ properties.zip fields,
            HasBase preferUnsigned pair.1.1 pair.1.2 pair.2.base)
    ?node ?missing ?properties ?malformed ?nil ?cons
  case node =>
    intro key path node items fields type h
    obtain ⟨name, named, array | object | integer | text | boolean⟩ := nodeType_eq_ok h
    · obtain ⟨known, inner, element, found, isObject, inside, rfl⟩ := array
      have is := hasType_of_ofName? named known
      obtain ⟨wellFormed, describes⟩ := items inner found element inside
      have base := HasBase.items is found describes.base
      exact ⟨.array is found isObject wellFormed, base, iff_of_true rfl is, rfl⟩
    · obtain ⟨known, inner, inside, rfl⟩ := object
      have is := hasType_of_ofName? named known
      obtain ⟨wellFormed, properties, found, declared, bases⟩ := fields inner inside
      exact ⟨wellFormed is, .plain is (by decide) (.record is found declared bases)⟩
    · obtain ⟨known, rfl⟩ := integer
      have is := hasType_of_ofName? named known
      exact ⟨.integer is, .plain is (by decide) (.integer is)⟩
    · obtain ⟨known, base, inside, rfl⟩ := text
      have is := hasType_of_ofName? named known
      obtain ⟨listed, -⟩ := textBase_eq_ok inside
      exact ⟨.string is listed, .plain is (by decide) (hasBase_of_textBase is inside)⟩
    · obtain ⟨known, rfl⟩ := boolean
      have is := hasType_of_ofName? named known
      exact ⟨.boolean is, .plain is (by decide) (.boolean is)⟩
  case missing =>
    intro path node missing fields h
    obtain ⟨_, _, found, -⟩ := nodeFields_eq_ok h
    rw [missing] at found
    cases found
  case properties =>
    intro path node properties found ih fields h
    rw [nodeFields_of_properties found] at h
    obtain ⟨required, known, inside⟩ := bind_eq_ok.mp h
    obtain ⟨texts, listed⟩ := requiredKeys_eq_ok known
    obtain ⟨wellFormed, declared, bases⟩ := ih required fields inside
    -- what was read of the owner's list, as what the owner requires
    have same : (· ∈ required) = Requires node := funext fun key => propext (listed key)
    rw [same] at declared
    exact ⟨fun is => .object is found wellFormed texts, properties, found, declared, bases⟩
  case malformed =>
    intro path node value other found fields h
    obtain ⟨properties, _, again, -⟩ := nodeFields_eq_ok h
    exact (other properties (Option.some.inj (found.symm.trans again))).elim
  case nil =>
    intro path required fields h
    rw [propertyFields] at h
    cases h
    simp
  case cons =>
    intro path required key node properties first rest fields h
    obtain ⟨type, others, known, behind, rfl⟩ := propertyFields_cons_eq_ok h
    obtain ⟨wellFormed, describes⟩ := first type known
    obtain ⟨wellFormedRest, declared, bases⟩ := rest others behind
    refine ⟨?_, .cons ⟨rfl, ?_, describes.isArray⟩ declared, ?_⟩
    · intro property member
      rcases List.mem_cons.mp member with rfl | later
      · exact wellFormed
      · exact wellFormedRest property later
    · simp
    · intro pair member
      rcases List.mem_cons.mp member with rfl | later
      · exact describes.base
      · exact bases pair later

section Complete

variable (preferUnsigned : Bool)

theorem exists_requiredKeys {node : Json} (path : List String)
    (texts : ∀ value, keyword? .required node = some value → IsTexts value) :
    ∃ required, requiredKeys path node = .ok required := by
  rw [requiredKeys]
  split
  next => exact ⟨[], rfl⟩
  next value found =>
    obtain ⟨keys, known⟩ := isTexts_iff.mp (texts value found)
    rw [known]
    exact ⟨keys, rfl⟩

theorem exists_textBase {node : Json} (path : List String)
    (texts : ∀ value, keyword? .enum node = some value → IsTexts value) :
    ∃ base, textBase path node = .ok base := by
  rw [textBase]
  split
  next => exact ⟨.string, rfl⟩
  next value found =>
    obtain ⟨values, known⟩ := isTexts_iff.mp (texts value found)
    rw [known]
    cases values with
    | nil => exact ⟨.string, rfl⟩
    | cons first values => exact ⟨_, rfl⟩

theorem exists_propertyFields {path required : List String} {properties : List (String × Json)}
    (h : ∀ property ∈ properties, ∀ key path, ∃ type,
      nodeType preferUnsigned key path property.2 = .ok type) :
    ∃ fields, propertyFields preferUnsigned path required properties = .ok fields := by
  induction properties with
  | nil => exact ⟨[], by rw [propertyFields]; rfl⟩
  | cons property properties ih =>
      obtain ⟨type, first⟩ := h property List.mem_cons_self property.1
        (path ++ [Keyword.properties.name, property.1])
      obtain ⟨fields, rest⟩ := ih fun other later => h other (List.mem_cons_of_mem property later)
      rw [propertyFields_cons, first, rest]
      exact ⟨_, rfl⟩

theorem exists_nodeFields {node : Json} {path : List String} {properties : List (String × Json)}
    (found : keyword? .properties node = some (.object properties))
    (texts : ∀ value, keyword? .required node = some value → IsTexts value)
    (h : ∀ property ∈ properties, ∀ key path, ∃ type,
      nodeType preferUnsigned key path property.2 = .ok type) :
    ∃ fields, nodeFields preferUnsigned path node = .ok fields := by
  obtain ⟨required, known⟩ := exists_requiredKeys path texts
  rw [nodeFields_of_properties found, known]
  exact exists_propertyFields preferUnsigned h

theorem WellFormed.exists_nodeType {node : Json} (h : WellFormed node) (key : String)
    (path : List String) : ∃ type, nodeType preferUnsigned key path node = .ok type := by
  induction h generalizing key path with
  | object is found inside texts ih =>
      obtain ⟨fields, known⟩ := exists_nodeFields preferUnsigned found texts ih
      rw [nodeType_of_object is, known]
      exact ⟨_, rfl⟩
  | array is found isObject inside ih =>
      obtain ⟨element, known⟩ := ih key (path ++ [Keyword.items.name])
      rw [nodeType_of_array is, found]
      simp only [isObject, if_true, known]
      exact ⟨_, rfl⟩
  | integer is => exact ⟨_, nodeType_of_integer is⟩
  | string is texts =>
      obtain ⟨base, known⟩ := exists_textBase path texts
      rw [nodeType_of_string is, known]
      exact ⟨_, rfl⟩
  | boolean is => exact ⟨_, nodeType_of_boolean is⟩

end Complete

theorem exists_schemaRecord_iff {preferUnsigned : Bool} {root : Json} :
    (∃ record, schemaRecord preferUnsigned root = .ok record) ↔
      WellFormed root ∧ HasType .object root := by
  constructor
  · rintro ⟨record, h⟩
    obtain ⟨fields, named, inside, -⟩ := schemaRecord_eq_ok h
    have is : HasType .object root := typeName_eq_ok.mp named
    obtain ⟨wellFormed, -⟩ := (nodeType_sound preferUnsigned).2.1 [] root fields inside
    exact ⟨wellFormed is, is⟩
  · rintro ⟨wellFormed, is⟩
    obtain ⟨type, known⟩ := wellFormed.exists_nodeType preferUnsigned "" []
    rw [nodeType_of_object is] at known
    obtain ⟨fields, inside, -⟩ := bind_eq_ok.mp known
    rw [schemaRecord_of_object is, inside]
    exact ⟨_, rfl⟩

theorem exists_propertyType_iff {preferUnsigned : Bool} {key : String} {node : Json} :
    (∃ type, propertyType preferUnsigned key node = .ok type) ↔ WellFormed node := by
  constructor
  · rintro ⟨type, h⟩
    exact ((nodeType_sound preferUnsigned).1 key _ node type h).1
  · intro wellFormed
    exact wellFormed.exists_nodeType preferUnsigned key _

theorem eq_of_declared {required : String → Prop} {preferUnsigned : Bool}
    {properties : List (String × Json)} {fields others : List (Field Base)}
    (first : List.Forall₂ (Declared required) properties fields)
    (second : List.Forall₂ (Declared required) properties others)
    (bases : ∀ pair ∈ properties.zip fields, ∀ base,
      HasBase preferUnsigned pair.1.1 pair.1.2 base → pair.2.base = base)
    (h : ∀ pair ∈ properties.zip others, HasBase preferUnsigned pair.1.1 pair.1.2 pair.2.base) :
    fields = others := by
  induction first generalizing others with
  | nil => cases second; rfl
  | @cons property field properties fields declared rest ih =>
      cases second with
      | @cons _ other _ others declared' rest' =>
          have base : field.base = other.base :=
            bases (property, field) List.mem_cons_self _ (h (property, other) List.mem_cons_self)
          have key : field.key = other.key := declared.key.trans declared'.key.symm
          have isArray : field.isArray = other.isArray :=
            Bool.eq_iff_iff.mpr (declared.isArray.trans declared'.isArray.symm)
          have isOptional : field.isOptional = other.isOptional :=
            Bool.eq_iff_iff.mpr (declared.isOptional.trans declared'.isOptional.symm)
          have tail : fields = others :=
            ih rest' (fun pair later => bases pair (List.mem_cons_of_mem _ later))
              fun pair later => h pair (List.mem_cons_of_mem _ later)
          cases field
          cases other
          simp_all

theorem HasBase.unique {preferUnsigned : Bool} {key : String} {node : Json} {base other : Base}
    (h : HasBase preferUnsigned key node base) (h' : HasBase preferUnsigned key node other) :
    base = other := by
  induction h generalizing other with
  | items is found _ ih =>
      cases h' with
      | items _ again inside =>
          cases found.symm.trans again
          exact ih inside
      | record is' | integer is' | string is' | choice is' | boolean is' =>
          exact absurd (is.unique is') (by decide)
  | record is found declared _ ih =>
      cases h' with
      | record _ again declared' bases =>
          cases found.symm.trans again
          have same := eq_of_declared declared declared' (fun pair member _ => ih pair member) bases
          rw [same]
      | items is' | integer is' | string is' | choice is' | boolean is' =>
          exact absurd (is.unique is') (by decide)
  | integer is =>
      cases h' with
      | integer _ => rfl
      | items is' | record is' | string is' | choice is' | boolean is' =>
          exact absurd (is.unique is') (by decide)
  | string is free =>
      cases h' with
      | string _ _ => rfl
      | choice _ nonempty listed => exact absurd (free _ listed) (by simpa using nonempty)
      | items is' | record is' | integer is' | boolean is' =>
          exact absurd (is.unique is') (by decide)
  | choice is nonempty listed =>
      cases h' with
      | choice _ _ again =>
          have texts := texts?_eq_some.mpr (Option.some.inj (listed.symm.trans again))
          rw [texts?_eq_some.mpr rfl] at texts
          rw [Option.some.inj texts]
      | string _ free => exact absurd (free _ listed) (by simpa using nonempty)
      | items is' | record is' | integer is' | boolean is' =>
          exact absurd (is.unique is') (by decide)
  | boolean is =>
      cases h' with
      | boolean _ => rfl
      | items is' | record is' | integer is' | string is' | choice is' =>
          exact absurd (is.unique is') (by decide)

/-- Inference succeeds on the well-formed nodes and on no others; a root must also describe an
object. The record of a root has, at every depth, the fields that the schema declares there, and the
base of each is the only one that its property has. -/
theorem inference_exact_on_grammar (preferUnsigned : Bool) :
    (∀ root, (∃ record, schemaRecord preferUnsigned root = .ok record) ↔
      WellFormed root ∧ HasType .object root) ∧
    (∀ root record, schemaRecord preferUnsigned root = .ok record →
      HasFields preferUnsigned root record.fields) ∧
    (∀ key node base other, HasBase preferUnsigned key node base →
      HasBase preferUnsigned key node other → base = other) ∧
    (∀ key node, (∃ type, propertyType preferUnsigned key node = .ok type) ↔ WellFormed node) ∧
    ∀ key node type, propertyType preferUnsigned key node = .ok type → type.isOptional = false := by
  refine ⟨fun root => exists_schemaRecord_iff, ?_, fun key node base other h h' => h.unique h',
    fun key node => exists_propertyType_iff, ?_⟩
  · intro root record h
    obtain ⟨fields, -, inside, rfl⟩ := schemaRecord_eq_ok h
    exact ((nodeType_sound preferUnsigned).2.1 [] root fields inside).2
  · intro key node type h
    exact ((nodeType_sound preferUnsigned).1 key _ node type h).2.isOptional

/-- A parcel has a number, may have a state, and may have items in it. -/
def parcelSchema : Json := .object [
  ("type", .string "object"),
  ("properties", .object [
    ("id", .object [("type", .string "integer"), ("minimum", .number (.integer 0))]),
    ("state", .object [("type", .string "string"),
      ("enum", .array [.string "sent", .string "lost", .string "sent"])]),
    ("items", .object [("type", .string "array"),
      ("items", .object [("type", .string "object"),
        ("properties", .object [("sku/no", .object [("type", .string "string")])]),
        ("required", .array [.string "sku/no"])])])]),
  ("required", .array [.string "id"])]

theorem inference_exact_on_parcel : ∃ record, schemaRecord true parcelSchema = .ok record ∧
    HasFields true parcelSchema record.fields := by
  have sku : WellFormed (.object [("type", .string "string")]) := by
    refine .string rfl ?_
    intro value found
    cases found
  have item : WellFormed (.object [("type", .string "object"),
      ("properties", .object [("sku/no", .object [("type", .string "string")])]),
      ("required", .array [.string "sku/no"])]) := by
    refine .object rfl rfl (by simpa using sku) ?_
    intro value found
    cases found
    exact ⟨["sku/no"], rfl⟩
  have state : WellFormed (.object [("type", .string "string"),
      ("enum", .array [.string "sent", .string "lost", .string "sent"])]) := by
    refine .string rfl ?_
    intro value found
    cases found
    exact ⟨["sent", "lost", "sent"], rfl⟩
  have wellFormed : WellFormed parcelSchema := by
    refine .object rfl rfl ?_ ?_
    · intro property member
      simp only [List.mem_cons, List.not_mem_nil, or_false] at member
      rcases member with rfl | rfl | rfl
      · exact .integer rfl
      · exact state
      · exact .array rfl rfl rfl item
    · intro value found
      cases found
      exact ⟨["id"], rfl⟩
  obtain ⟨exact, described, -⟩ := inference_exact_on_grammar true
  obtain ⟨record, known⟩ := (exact parcelSchema).mpr ⟨wellFormed, rfl⟩
  exact ⟨record, known, described parcelSchema record known⟩

end SwiftModel.Inference
