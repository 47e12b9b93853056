/- What the types and the fields of schema nodes are made of. -/
import SwiftModel.Inference.Schema

namespace SwiftModel.Inference
open SwiftModel.Identifier

section Inversion

variable {preferUnsigned : Bool} {key : String} {path required : List String} {node : Json}

/-- A node that has a type is of one of the types that are supported, and has all that this one
asks for. -/
theorem nodeType_eq_ok {type : FieldType} (h : nodeType preferUnsigned key path node = .ok type) :
    ∃ name, typeName path node = .ok name ∧
      ((NodeType.ofName? name = some .array ∧ ∃ items element, keyword? .items node = some items ∧
          items.isObject = true ∧
          nodeType preferUnsigned key (path ++ [Keyword.items.name]) items = .ok element ∧
          type = .arrayOf element.base) ∨
        (NodeType.ofName? name = some .object ∧ ∃ fields,
          nodeFields preferUnsigned path node = .ok fields ∧
          type = .plain (.record ⟨typeNameForKey key, fields⟩)) ∨
        (NodeType.ofName? name = some .integer ∧ type = .plain (integerBase preferUnsigned node)) ∨
        (NodeType.ofName? name = some .string ∧ ∃ base, textBase path node = .ok base ∧
          type = .plain base) ∨
        (NodeType.ofName? name = some .boolean ∧ type = .plain .boolean)) := by
  rw [nodeType] at h
  simp only [bind, Except.bind] at h
  split at h
  next => cases h
  next name known =>
    refine ⟨name, known, ?_⟩
    split at h
    next => cases h
    next array =>
      left
      split at h
      next => cases h
      next items found =>
        split at h
        next => cases h
        next object =>
          split at h
          next => cases h
          next element inside =>
            cases h
            exact ⟨array, items, element, found, by simpa using object, inside, rfl⟩
    next object =>
      split at h
      next => cases h
      next fields inside =>
        cases h
        exact .inr (.inl ⟨object, fields, inside, rfl⟩)
    next integer =>
      cases h
      exact .inr (.inr (.inl ⟨integer, rfl⟩))
    next text =>
      split at h
      next => cases h
      next base inside =>
        cases h
        exact .inr (.inr (.inr (.inl ⟨text, base, inside, rfl⟩)))
    next boolean =>
      cases h
      exact .inr (.inr (.inr (.inr ⟨boolean, rfl⟩)))

theorem nodeFields_eq_ok {fields : List (Field Base)}
    (h : nodeFields preferUnsigned path node = .ok fields) :
    ∃ properties required, keyword? .properties node = some (.object properties) ∧
      requiredKeys path node = .ok required ∧
      propertyFields preferUnsigned path required properties = .ok fields := by
  rw [nodeFields] at h
  split at h
  next => cases h
  next properties found =>
    simp only [bind, Except.bind] at h
    split at h
    next => cases h
    next required known => exact ⟨properties, required, found, known, h⟩
  next => cases h

theorem propertyFields_cons_eq_ok {properties : List (String × Json)} {fields : List (Field Base)}
    (h : propertyFields preferUnsigned path required ((key, node) :: properties) = .ok fields) :
    ∃ type rest,
      nodeType preferUnsigned key (path ++ [Keyword.properties.name, key]) node = .ok type ∧
      propertyFields preferUnsigned path required properties = .ok rest ∧
      fields = ⟨key, type.base, type.isArray, !required.contains key⟩ :: rest := by
  rw [propertyFields] at h
  simp only [bind, Except.bind] at h
  split at h
  next => cases h
  next type known =>
    split at h
    next => cases h
    next rest behind =>
      cases h
      exact ⟨type, rest, known, behind, rfl⟩

theorem schemaRecord_eq_ok {root : Json} {record : Record Base}
    (h : schemaRecord preferUnsigned root = .ok record) :
    ∃ fields, typeName [] root = .ok NodeType.object.name ∧
      nodeFields preferUnsigned [] root = .ok fields ∧ record = ⟨defaultRootName, fields⟩ := by
  rw [schemaRecord] at h
  simp only [bind, Except.bind] at h
  split at h
  next => cases h
  next name known =>
    split at h
    next => cases h
    next object =>
      split at h
      next => cases h
      next fields inside =>
        cases h
        exact ⟨fields, by simpa [known] using object, inside, rfl⟩

end Inversion

end SwiftModel.Inference
