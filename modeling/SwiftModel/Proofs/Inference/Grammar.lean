/- The grammar of schema nodes, and what the readers of single keywords find in them. -/
import SwiftModel.Proofs.Failure.Sequence
import SwiftModel.Proofs.Inference.Schema

namespace SwiftModel.Inference
open SwiftModel.Identifier

def HasType (type : NodeType) (node : Json) : Prop :=
  keyword? .type node = some (.string type.name)

/-- An array of nothing but texts. -/
def IsTexts (value : Json) : Prop := ∃ texts : List String, value = .array (texts.map .string)

/-- The shape that a keyword asks of its value. -/
def Keyword.Fits : Keyword → Json → Prop
  | .type, value => ∃ name, value = .string name
  | .properties, value | .items, value => ∃ members, value = .object members
  | .required, value | .enum, value => IsTexts value

/-- A node that describes a type. Keywords that its type does not read may have any value. -/
inductive WellFormed : Json → Prop
  | object {node : Json} {properties : List (String × Json)} : HasType .object node →
      keyword? .properties node = some (.object properties) →
      (∀ property ∈ properties, WellFormed property.2) →
      (∀ value, keyword? .required node = some value → IsTexts value) → WellFormed node
  | array {node items : Json} : HasType .array node → keyword? .items node = some items →
      items.isObject = true → WellFormed items → WellFormed node
  | integer {node : Json} : HasType .integer node → WellFormed node
  | string {node : Json} : HasType .string node →
      (∀ value, keyword? .enum node = some value → IsTexts value) → WellFormed node
  | boolean {node : Json} : HasType .boolean node → WellFormed node

/-- A key that the node's own list of required keys has. -/
def Requires (node : Json) (key : String) : Prop :=
  ∃ keys, keyword? .required node = some (.array keys) ∧ .string key ∈ keys

section Readers

variable {path : List String} {node : Json}

theorem NodeType.ofName?_eq_some {name : String} {type : NodeType} :
    NodeType.ofName? name = some type ↔ name = type.name := by
  constructor
  · intro h
    have found := List.find?_some h
    exact (beq_iff_eq.mp found).symm
  · rintro rfl
    cases type <;> decide

theorem HasType.unique {type other : NodeType} (h : HasType type node) (h' : HasType other node) :
    type = other := by
  have same : type.name = other.name := by
    have texts := Option.some.inj (h.symm.trans h')
    exact Json.string.inj texts
  have known : NodeType.ofName? type.name = some other := NodeType.ofName?_eq_some.mpr same
  rw [NodeType.ofName?_eq_some.mpr rfl] at known
  exact Option.some.inj known

theorem typeName_eq_ok {name : String} :
    typeName path node = .ok name ↔ keyword? .type node = some (.string name) := by
  rw [typeName]
  split
  next none => simp [none]
  next found some => simp [some]
  next value other some =>
    rw [some]
    constructor
    · intro h
      cases h
    · intro h
      exact absurd (Option.some.inj h) (other name)

theorem hasType_of_ofName? {name : String} {type : NodeType} (named : typeName path node = .ok name)
    (known : NodeType.ofName? name = some type) : HasType type node := by
  have same : name = type.name := NodeType.ofName?_eq_some.mp known
  subst same
  exact typeName_eq_ok.mp named

theorem mapM_string?_eq_some {items : List Json} {texts : List String} :
    items.mapM Json.string? = some texts ↔ items = texts.map .string := by
  induction items generalizing texts with
  | nil => cases texts <;> simp
  | cons item items ih =>
      rw [List.mapM_cons]
      cases texts with
      | nil => cases item <;> simp [Json.string?, Option.bind_eq_some_iff]
      | cons text texts =>
          cases item with
          | string value =>
              simp only [Json.string?, List.map_cons, List.cons.injEq, Json.string.injEq]
              rw [← ih]
              cases items.mapM Json.string? <;> simp
          | _ => simp [Json.string?]

theorem texts?_eq_some {value : Json} {texts : List String} :
    texts? value = some texts ↔ value = .array (texts.map .string) := by
  cases value with
  | array items => simp [texts?, mapM_string?_eq_some]
  | _ => simp [texts?]

theorem isTexts_iff {value : Json} : IsTexts value ↔ ∃ texts, texts? value = some texts := by
  simp only [texts?_eq_some]
  rfl

theorem not_isTexts {value : Json} (h : texts? value = none) : ¬ IsTexts value := by
  intro texts
  obtain ⟨found, known⟩ := isTexts_iff.mp texts
  rw [h] at known
  cases known

theorem requiredKeys_eq_ok {keys : List String} (h : requiredKeys path node = .ok keys) :
    (∀ value, keyword? .required node = some value → IsTexts value) ∧
      ∀ key, key ∈ keys ↔ Requires node key := by
  rw [requiredKeys] at h
  split at h
  next absent =>
    cases h
    simp [Requires, absent]
  next value found =>
    split at h
    next texts known =>
      cases h
      have shape := texts?_eq_some.mp known
      subst shape
      constructor
      · intro value same
        rw [found] at same
        exact ⟨keys, (Option.some.inj same).symm⟩
      · simp [Requires, found]
    next => cases h

theorem textBase_eq_ok {base : Base} (h : textBase path node = .ok base) :
    (∀ value, keyword? .enum node = some value → IsTexts value) ∧
      ((base = .string ∧ ∀ value, keyword? .enum node = some value → value = .array []) ∨
        ∃ values, values ≠ [] ∧ keyword? .enum node = some (.array (values.map .string)) ∧
          base = .choice values.eraseDups) := by
  rw [textBase] at h
  split at h
  next absent =>
    cases h
    simp [absent]
  next value found =>
    split at h
    next => cases h
    next known =>
      cases h
      have shape := texts?_eq_some.mp known
      subst shape
      simp [found, IsTexts]
    next values nonempty known =>
      cases h
      have shape := texts?_eq_some.mp known
      subst shape
      refine ⟨?_, .inr ⟨values, fun none => nonempty none, found, rfl⟩⟩
      intro value same
      rw [found] at same
      exact ⟨values, (Option.some.inj same).symm⟩

end Readers

section Equations

variable {preferUnsigned : Bool} {key : String} {path required : List String} {node : Json}
  {properties : List (String × Json)}

theorem nodeType_of_untyped {fault : SchemaFault} (h : typeName path node = .error fault) :
    nodeType preferUnsigned key path node = .error fault := by
  rw [nodeType, h]
  rfl

theorem nodeType_of_unsupported {name : String} (h : typeName path node = .ok name)
    (unknown : NodeType.ofName? name = none) :
    nodeType preferUnsigned key path node = .error (.unsupportedType name path) := by
  rw [nodeType, h]
  simp only [bind, Except.bind, unknown]
  rfl

theorem nodeType_of_array (type : HasType .array node) :
    nodeType preferUnsigned key path node =
      match keyword? .items node with
      | none => .error (.missing .items path)
      | some items =>
        if items.isObject then
          (nodeType preferUnsigned key (path ++ [Keyword.items.name]) items).bind fun element =>
            .ok (.arrayOf element.base)
        else .error (.malformed .items path) := by
  have name : typeName path node = .ok NodeType.array.name := typeName_eq_ok.mpr type
  rw [nodeType, name]
  simp only [bind, Except.bind, NodeType.ofName?_eq_some.mpr rfl]
  split
  next none => simp [none, throw, throwThe, MonadExceptOf.throw]
  next items found =>
    simp only [found]
    cases items.isObject with
    | false => simp [throw, throwThe, MonadExceptOf.throw]
    | true => simp [pure, Except.pure]

theorem nodeType_of_object (type : HasType .object node) :
    nodeType preferUnsigned key path node =
      (nodeFields preferUnsigned path node).bind fun fields =>
        .ok (.plain (.record ⟨typeNameForKey key, fields⟩)) := by
  have name : typeName path node = .ok NodeType.object.name := typeName_eq_ok.mpr type
  rw [nodeType, name]
  simp only [bind, Except.bind, NodeType.ofName?_eq_some.mpr rfl]
  rfl

theorem nodeType_of_integer (type : HasType .integer node) :
    nodeType preferUnsigned key path node = .ok (.plain (integerBase preferUnsigned node)) := by
  have name : typeName path node = .ok NodeType.integer.name := typeName_eq_ok.mpr type
  rw [nodeType, name]
  rfl

theorem nodeType_of_string (type : HasType .string node) :
    nodeType preferUnsigned key path node =
      (textBase path node).bind fun base => .ok (.plain base) := by
  have name : typeName path node = .ok NodeType.string.name := typeName_eq_ok.mpr type
  rw [nodeType, name]
  rfl

theorem nodeType_of_boolean (type : HasType .boolean node) :
    nodeType preferUnsigned key path node = .ok (.plain .boolean) := by
  have name : typeName path node = .ok NodeType.boolean.name := typeName_eq_ok.mpr type
  rw [nodeType, name]
  rfl

theorem nodeFields_of_missing (absent : keyword? .properties node = none) :
    nodeFields preferUnsigned path node = .error (.missing .properties path) := by
  rw [nodeFields]
  split
  next => rfl
  next found => rw [absent] at found; cases found
  next found => rw [absent] at found; cases found

theorem nodeFields_of_malformed {value : Json} (found : keyword? .properties node = some value)
    (other : ∀ members, value ≠ .object members) :
    nodeFields preferUnsigned path node = .error (.malformed .properties path) := by
  rw [nodeFields]
  split
  next none => rw [none] at found; cases found
  next properties known =>
    exact absurd (Option.some.inj (found.symm.trans known)) (other properties)
  next => rfl

theorem nodeFields_of_properties (found : keyword? .properties node = some (.object properties)) :
    nodeFields preferUnsigned path node =
      (requiredKeys path node).bind fun required =>
        propertyFields preferUnsigned path required properties := by
  rw [nodeFields]
  split
  next none => rw [none] at found; cases found
  next inner known =>
    cases known.symm.trans found
    rfl
  next value other known =>
    exact absurd (Option.some.inj (known.symm.trans found)) (other properties)

theorem schemaRecord_of_object (type : HasType .object node) :
    schemaRecord preferUnsigned node =
      (nodeFields preferUnsigned [] node).bind fun fields => .ok ⟨defaultRootName, fields⟩ := by
  have name : typeName [] node = .ok NodeType.object.name := typeName_eq_ok.mpr type
  rw [schemaRecord, name]
  rfl

theorem propertyFields_cons :
    propertyFields preferUnsigned path required ((key, node) :: properties) =
      (nodeType preferUnsigned key (path ++ [Keyword.properties.name, key]) node).bind fun type =>
        (propertyFields preferUnsigned path required properties).bind fun fields =>
          .ok (⟨key, type.base, type.isArray, !required.contains key⟩ :: fields) := by
  rw [propertyFields]
  rfl

end Equations

end SwiftModel.Inference
