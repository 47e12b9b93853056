/- What is valid for a schema is a value of the record that is inferred from the schema. -/
import SwiftModel.Proofs.Inference.Acceptance
import SwiftModel.Proofs.Inference.Described
import SwiftModel.Proofs.Number.Value

namespace SwiftModel.Inference

/-- The values that a node describes. Members that are no properties of the node are free. -/
inductive Valid : Json → Json → Prop
  | object {node : Json} {members : List (String × Json)} : HasType .object node →
      (∀ key, Requires node key → members.lookup key ≠ none) →
      (∀ properties, keyword? .properties node = some (.object properties) →
        ∀ property ∈ properties, ∀ value, members.lookup property.1 = some value →
          Valid property.2 value) →
      Valid node (.object members)
  | array {node : Json} {values : List Json} : HasType .array node →
      (∀ items, keyword? .items node = some items → ∀ value ∈ values, Valid items value) →
      Valid node (.array values)
  | integer {node : Json} {n : Int} : HasType .integer node →
      (∀ bound, node.member? "minimum" = some (.number bound) → bound.value ≤ n) →
      (∀ bound, node.member? "exclusiveMinimum" = some (.number bound) → bound.value < n) →
      Valid node (.number (.integer n))
  | string {node : Json} {text : String} : HasType .string node →
      (∀ values, keyword? .enum node = some (.array values) → values ≠ [] →
        .string text ∈ values) →
      Valid node (.string text)
  | boolean {node : Json} {b : Bool} : HasType .boolean node → Valid node (.boolean b)

/-- The nodes of a schema: the root, and what stands in a node where its type reads it. -/
inductive Subschema : Json → Json → Prop
  | root {node : Json} : Subschema node node
  | property {node inner : Json} {properties : List (String × Json)} {property : String × Json} :
      HasType .object node → keyword? .properties node = some (.object properties) →
      property ∈ properties → Subschema property.2 inner → Subschema node inner
  | items {node items inner : Json} : HasType .array node → keyword? .items node = some items →
      Subschema items inner → Subschema node inner

/-- No array in the schema has arrays for its items. -/
def FlatArrays (root : Json) : Prop :=
  ∀ node items, Subschema root node → HasType .array node → keyword? .items node = some items →
    ¬ HasType .array items

section Flat

variable {node : Json}

theorem flatArrays_iff_properties (is : HasType .object node) :
    FlatArrays node ↔ ∀ properties, keyword? .properties node = some (.object properties) →
      ∀ property ∈ properties, FlatArrays property.2 := by
  constructor
  · intro flat properties found property listed inner items within
    exact flat inner items (.property is found listed within)
  · intro flat inner items inside array
    cases inside with
    | root => exact absurd (is.unique array) (by decide)
    | property _ found listed within => exact flat _ found _ listed inner items within array
    | items is' => exact absurd (is.unique is') (by decide)

theorem flatArrays_iff_items (is : HasType .array node) :
    FlatArrays node ↔ ∀ items, keyword? .items node = some items →
      ¬ HasType .array items ∧ FlatArrays items := by
  constructor
  · intro flat items found
    refine ⟨flat node items .root is found, ?_⟩
    intro inner others within
    exact flat inner others (.items is found within)
  · intro flat inner items inside array
    cases inside with
    | root =>
        intro found
        exact (flat items found).1
    | property is' => exact absurd (is.unique is') (by decide)
    | items _ found within => exact (flat _ found).2 inner items within array

theorem flatArrays_of_scalar {type : NodeType} (is : HasType type node) (notObject : type ≠ .object)
    (notArray : type ≠ .array) : FlatArrays node := by
  intro inner items inside array
  cases inside with
  | root => exact absurd (is.unique array) notArray
  | property is' => exact absurd (is.unique is') notObject
  | items is' => exact absurd (is.unique is') notArray

end Flat

section Bounds

variable {preferUnsigned : Bool} {node : Json} {n : Int}

theorem isNonnegativeBound_iff {keyword : String} :
    isNonnegativeBound keyword node = true ↔
      ∃ bound, node.member? keyword = some (.number bound) ∧ 0 ≤ bound.value := by
  rw [isNonnegativeBound]
  split
  next bound found =>
    rw [Number.isNonnegative_iff]
    constructor
    · intro h
      exact ⟨bound, found, h⟩
    · rintro ⟨other, again, h⟩
      cases found.symm.trans again
      exact h
  next value other =>
    constructor
    · intro h
      cases h
    · rintro ⟨bound, found, -⟩
      exact absurd found (other bound)

/-- An integer that meets its bounds is no less than zero where it is typed as unsigned. -/
theorem admits_integerBase
    (least : ∀ bound, node.member? "minimum" = some (.number bound) → bound.value ≤ n)
    (above : ∀ bound, node.member? "exclusiveMinimum" = some (.number bound) → bound.value < n) :
    (integerBase preferUnsigned node).Admits (.number (.integer n)) := by
  rw [integerBase]
  split
  next unsigned =>
    have bounds := (Bool.and_eq_true_iff.mp unsigned).2
    have nonnegative : (0 : ℚ) ≤ n := by
      rcases Bool.or_eq_true_iff.mp bounds with h | h
      · obtain ⟨bound, found, zero⟩ := isNonnegativeBound_iff.mp h
        exact zero.trans (least bound found)
      · obtain ⟨bound, found, zero⟩ := isNonnegativeBound_iff.mp h
        exact zero.trans (above bound found).le
    exact .unsigned (Int.cast_nonneg_iff.mp nonnegative)
  next => exact .integer n

end Bounds

theorem exists_declared {required : String → Prop} {properties : List (String × Json)}
    {fields : List (Field Base)} (h : List.Forall₂ (Declared required) properties fields)
    {field : Field Base} (member : field ∈ fields) :
    ∃ property, (property, field) ∈ properties.zip fields ∧ Declared required property field := by
  induction h with
  | nil => cases member
  | @cons property first properties fields declared _ ih =>
      rcases List.mem_cons.mp member with rfl | later
      · exact ⟨property, List.mem_cons_self, declared⟩
      · obtain ⟨other, pair, declared⟩ := ih later
        exact ⟨other, List.mem_cons_of_mem _ pair, declared⟩

/-- A valid value of an object node fits the fields of the node if what it has for each property fits
the property's field; what it lacks is not required, so the field is optional. -/
theorem accepts_fields {node value : Json} {properties : List (String × Json)}
    {fields : List (Field Base)} (name : String) (is : HasType .object node)
    (found : keyword? .properties node = some (.object properties))
    (declared : List.Forall₂ (Declared (Requires node)) properties fields)
    (flat : FlatArrays node) (valid : Valid node value)
    (h : ∀ pair ∈ properties.zip fields, FlatArrays pair.1.2 → ∀ value, Valid pair.1.2 value →
      (pair.2.type.isArray = true ↔ HasType .array pair.1.2) →
        FieldType.Accepts .loose pair.2.type (some value)) :
    Base.Accepts .loose (.record ⟨name, fields⟩) value := by
  cases valid with
  | @object _ members _ present inside =>
      refine .loose ?_
      intro field member
      obtain ⟨property, pair, declares⟩ := exists_declared declared member
      rw [declares.key]
      cases known : members.lookup property.1 with
      | none =>
          have free : ¬ Requires node property.1 := fun required => present _ required known
          exact .absent (declares.isOptional.mpr free)
      | some value =>
          have listed : property ∈ properties := (List.of_mem_zip pair).1
          have within : FlatArrays property.2 :=
            (flatArrays_iff_properties is).mp flat properties found property listed
          have valid : Valid property.2 value := inside properties found property listed value known
          exact h (property, field) pair within value valid declares.isArray
  | array is' | integer is' | string is' | boolean is' =>
      exact absurd (is.unique is') (by decide)

/-- Without an array on it a type takes what its base takes. -/
theorem accepts_single {fit : Fit} {type : FieldType} {base : Base} {node value : Json}
    {other : NodeType} (same : type.base = base)
    (isArray : type.isArray = true ↔ HasType .array node) (is : HasType other node)
    (apart : other ≠ .array) (h : base.Accepts fit value) :
    FieldType.Accepts fit type (some value) := by
  have single : type.isArray = false := by
    rw [Bool.eq_false_iff]
    intro array
    exact apart (is.unique (isArray.mp array))
  rw [← same] at h
  exact .single single h

/-- By induction on the base. The items of an array are single values, since they are no arrays
themselves, and the base of the array is theirs. -/
theorem HasBase.accepts {preferUnsigned : Bool} {key : String} {node : Json} {base : Base}
    (h : HasBase preferUnsigned key node base) (flat : FlatArrays node) {value : Json}
    (valid : Valid node value) {type : FieldType} (same : type.base = base)
    (isArray : type.isArray = true ↔ HasType .array node) :
    FieldType.Accepts .loose type (some value) := by
  induction h generalizing value type with
  | @items key node items base is found _ ih =>
      obtain ⟨single, within⟩ := (flatArrays_iff_items is).mp flat items found
      cases valid with
      | array _ inside =>
          refine .array (isArray.mpr is) ?_
          intro item member
          -- `type` has the array on it, so the induction goes on with the bare base
          have accepted : FieldType.Accepts .loose (.plain base) (some item) :=
            ih within (inside items found item member) rfl (iff_of_false Bool.false_ne_true single)
          rw [same]
          exact accepted.base rfl
      | object is' | integer is' | string is' | boolean is' =>
          exact absurd (is.unique is') (by decide)
  | record is found declared _ ih =>
      refine accepts_single same isArray is (by decide) ?_
      refine accepts_fields _ is found declared flat valid ?_
      intro pair member within value valid array
      exact ih pair member within valid rfl array
  | integer is =>
      cases valid with
      | integer _ least above =>
          exact accepts_single same isArray is (by decide) (.scalar (admits_integerBase least above))
      | object is' | array is' | string is' | boolean is' =>
          exact absurd (is.unique is') (by decide)
  | string is _ =>
      cases valid with
      | @string _ text _ _ =>
          exact accepts_single same isArray is (by decide) (.scalar (.string text))
      | object is' | array is' | integer is' | boolean is' =>
          exact absurd (is.unique is') (by decide)
  | choice is nonempty listed =>
      cases valid with
      | @string _ text _ chosen =>
          have member := chosen _ listed (by simpa using nonempty)
          have kept : text ∈ List.eraseDups _ := List.mem_eraseDups.mpr (by simpa using member)
          exact accepts_single same isArray is (by decide) (.scalar (.choice kept))
      | object is' | array is' | integer is' | boolean is' =>
          exact absurd (is.unique is') (by decide)
  | boolean is =>
      cases valid with
      | @boolean _ b _ =>
          exact accepts_single same isArray is (by decide) (.scalar (.boolean b))
      | object is' | array is' | integer is' | string is' =>
          exact absurd (is.unique is') (by decide)

/-- The record of a schema takes every value that is valid for the schema. An array of arrays is
typed by its innermost items, so the schema must have none. -/
theorem schemaRecord_accepts_valid {preferUnsigned : Bool} {root : Json} {record : Record Base}
    (h : schemaRecord preferUnsigned root = .ok record) (flat : FlatArrays root) {value : Json}
    (valid : Valid root value) : Base.Accepts .loose (.record record) value := by
  obtain ⟨fields, named, inside, rfl⟩ := schemaRecord_eq_ok h
  have is : HasType .object root := typeName_eq_ok.mp named
  obtain ⟨-, properties, found, declared, bases⟩ :=
    (nodeType_sound preferUnsigned).2.1 [] root fields inside
  refine accepts_fields defaultRootName is found declared flat valid ?_
  intro pair member within value valid array
  exact (bases pair member).accepts within valid rfl array

section Shelf

def countNode : Json := .object [("type", .string "integer"), ("minimum", .number (.integer 0))]

def labelNode : Json := .object [("type", .string "string"),
  ("enum", .array [.string "red", .string "blue"])]

def labelsNode : Json := .object [("type", .string "array"), ("items", labelNode)]

def shelfSchema : Json := .object [
  ("type", .string "object"),
  ("properties", .object [("count", countNode), ("label", labelNode), ("labels", labelsNode)]),
  ("required", .array [.string "count"])]

theorem countNode_type : HasType .integer countNode := rfl

theorem labelNode_type : HasType .string labelNode := rfl

theorem labelsNode_type : HasType .array labelsNode := rfl

theorem shelfSchema_type : HasType .object shelfSchema := rfl

/-- A shelf without a label, and with a member of its own. -/
def shelf : Json := .object [
  ("count", .number (.integer 3)),
  ("labels", .array [.string "blue", .string "red"]),
  ("note", .null)]

theorem flatArrays_shelfSchema : FlatArrays shelfSchema := by
  have label : FlatArrays labelNode :=
    flatArrays_of_scalar labelNode_type (by decide) (by decide)
  refine (flatArrays_iff_properties shelfSchema_type).mpr ?_
  intro properties found property listed
  cases found
  simp only [List.mem_cons, List.not_mem_nil, or_false] at listed
  rcases listed with rfl | rfl | rfl
  · exact flatArrays_of_scalar countNode_type (by decide) (by decide)
  · exact label
  · refine (flatArrays_iff_items labelsNode_type).mpr ?_
    intro items found
    cases found
    exact ⟨fun nested => absurd (labelNode_type.unique nested) (by decide), label⟩

theorem valid_shelf : Valid shelfSchema shelf := by
  have count : Valid countNode (.number (.integer 3)) := by
    refine .integer countNode_type ?_ ?_
    · intro bound found
      cases found
      decide
    · intro bound found
      cases found
  have label : ∀ text ∈ ["red", "blue"], Valid labelNode (.string text) := by
    intro text member
    refine .string labelNode_type ?_
    intro values found _
    cases found
    simpa using member
  refine .object shelfSchema_type ?_ ?_
  · intro key required
    obtain ⟨keys, found, member⟩ := required
    cases found
    cases List.mem_singleton.mp member
    decide
  · intro properties found property listed value known
    cases found
    simp only [List.mem_cons, List.not_mem_nil, or_false] at listed
    rcases listed with rfl | rfl | rfl <;> cases known
    · exact count
    · refine .array labelsNode_type ?_
      intro items found value member
      cases found
      simp only [List.mem_cons, List.not_mem_nil, or_false] at member
      rcases member with rfl | rfl
      · exact label "blue" (by decide)
      · exact label "red" (by decide)

theorem schemaRecord_shelfSchema : schemaRecord true shelfSchema = .ok ⟨defaultRootName, [
    ⟨"count", .named "UInt", false, false⟩,
    ⟨"label", .choice ["red", "blue"], false, true⟩,
    ⟨"labels", .choice ["red", "blue"], true, true⟩]⟩ := by
  have properties : keyword? .properties shelfSchema =
      some (.object [("count", countNode), ("label", labelNode), ("labels", labelsNode)]) := rfl
  rw [schemaRecord_of_object shelfSchema_type, nodeFields_of_properties properties]
  simp only [propertyFields_cons, nodeType_of_integer countNode_type,
    nodeType_of_string labelNode_type, nodeType_of_array labelsNode_type]
  have items : keyword? .items labelsNode = some labelNode := rfl
  rw [items]
  simp only [nodeType_of_string labelNode_type, propertyFields]
  rfl

theorem shelf_accepts_valid : ∃ record, schemaRecord true shelfSchema = .ok record ∧
    FlatArrays shelfSchema ∧ Valid shelfSchema shelf ∧
      Base.Accepts .loose (.record record) shelf :=
  ⟨_, schemaRecord_shelfSchema, flatArrays_shelfSchema, valid_shelf,
    schemaRecord_accepts_valid schemaRecord_shelfSchema flatArrays_shelfSchema valid_shelf⟩

end Shelf

end SwiftModel.Inference
