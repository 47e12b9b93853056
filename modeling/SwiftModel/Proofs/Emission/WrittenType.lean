/- A type as it is written can be taken apart: its name, an array or not, optional or not. -/
import SwiftModel.Proofs.Identifier.Distinct
import SwiftModel.Proofs.Identifier.PlainNames

namespace SwiftModel.Emission
open SwiftModel.Identifier

/-- A type apart from how it is written. -/
structure TypeParts where
  name : String
  isArray : Bool
  isOptional : Bool

/-- The parts of a written type. Its name is what remains without the marks. -/
def typeParts (type : String) : TypeParts where
  name := .ofList (type.toList.filter isPlain)
  isArray := type.toList.head? == some '['
  isOptional := type.toList.getLast? == some '?'

section Parts

variable {isArray isOptional : Bool} {name : String}

theorem toList_writtenType (isArray isOptional : Bool) (name : String) :
    (writtenType isArray isOptional name).toList =
      (if isArray then '[' :: (name.toList ++ [']']) else name.toList)
        ++ (if isOptional then ['?'] else []) := by
  rw [writtenType, String.toList_append]
  cases isArray <;> cases isOptional <;> simp

theorem filter_isPlain_writtenType (h : Plain name.toList) :
    (writtenType isArray isOptional name).toList.filter isPlain = name.toList := by
  have whole : name.toList.filter isPlain = name.toList := List.filter_eq_self.mpr h
  have marks : isPlain '[' = false ∧ isPlain ']' = false ∧ isPlain '?' = false := ⟨rfl, rfl, rfl⟩
  rw [toList_writtenType]
  cases isArray <;> cases isOptional <;> simp [List.filter_append, whole, marks]

theorem head?_writtenType (h : Plain name.toList) :
    (writtenType isArray isOptional name).toList.head? = some '[' ↔ isArray = true := by
  rw [toList_writtenType]
  cases isArray with
  | true => exact iff_of_true rfl rfl
  | false =>
      refine iff_of_false ?_ Bool.false_ne_true
      cases hn : name.toList with
      | nil => cases isOptional <;> decide
      | cons c cs =>
          intro same
          exact ne_of_isPlain (h c (hn ▸ List.mem_cons_self)) rfl (Option.some.inj same)

theorem getLast?_writtenType (h : Plain name.toList) :
    (writtenType isArray isOptional name).toList.getLast? = some '?' ↔ isOptional = true := by
  rw [toList_writtenType]
  cases isOptional with
  | true => exact iff_of_true List.getLast?_concat rfl
  | false =>
      refine iff_of_false ?_ Bool.false_ne_true
      intro same
      cases isArray with
      | true =>
          have last : ('[' :: (name.toList ++ [']'])).getLast? = some ']' :=
            List.getLast?_concat (l := '[' :: name.toList)
          simp only [if_true, Bool.false_eq_true, if_false, List.append_nil, last] at same
          exact absurd same (by decide)
      | false =>
          simp only [Bool.false_eq_true, if_false, List.append_nil] at same
          exact ne_of_isPlain (h '?' (List.mem_of_getLast? same)) rfl rfl

/-- A plain name in a written type comes back with what was said of it. -/
theorem typeParts_writtenType (h : Plain name.toList) :
    typeParts (writtenType isArray isOptional name) = ⟨name, isArray, isOptional⟩ := by
  rw [typeParts, filter_isPlain_writtenType h, String.ofList_toList]
  congr 1
  · rw [Bool.eq_iff_iff, beq_iff_eq, head?_writtenType h]
  · rw [Bool.eq_iff_iff, beq_iff_eq, getLast?_writtenType h]

theorem newline_not_mem_writtenType (h : Plain name.toList) :
    '\n' ∉ (writtenType isArray isOptional name).toList := by
  have free : '\n' ∉ name.toList := h.not_mem rfl
  rw [toList_writtenType]
  cases isArray <;> cases isOptional <;> simp [free]

end Parts

theorem plain_append {first second : String} (hf : Plain first.toList) (hs : Plain second.toList) :
    Plain (first ++ second).toList := by
  rw [String.toList_append]
  exact hf.append hs

theorem plain_identifier (naming : PropertyNaming) (key : String) :
    Plain (naming.identifier key).toList := by
  rw [PropertyNaming.identifier, String.toList_ofList]
  exact naming.plain_spell key.toList

theorem plain_declaredName (options : Options) (property : String) (isArray : Bool) :
    Plain (options.declaredName property isArray).toList := by
  have spelled : Plain (options.typeNaming.nestedTypeName property
      (isArray && options.singularElements)).toList := by
    rw [TypeNaming.nestedTypeName, String.toList_ofList]
    split
    · exact (options.typeNaming.plain_spell property.toList).singular
    · exact options.typeNaming.plain_spell property.toList
  rw [Options.declaredName, Escaper.avoidReserved]
  split
  · exact plain_append (.cons isPlain_underscore .nil) spelled
  · exact spelled

theorem plain_of_mem_identifiers {options : Options} {keys : List String} {name : String}
    (h : name ∈ options.identifiers keys) : Plain name.toList := by
  obtain ⟨given, member, k, hk⟩ := mem_distinctFrom h
  obtain ⟨key, -, rfl⟩ := List.mem_map.mp member
  rw [hk]
  exact (plain_identifier options.propertyNaming key).append fun c underscore =>
    (List.eq_of_mem_replicate underscore) ▸ isPlain_underscore

end SwiftModel.Emission
