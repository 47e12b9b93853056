/- What is known of options that are not refused. -/
import SwiftModel.Proofs.Identifier.PlainNames
import SwiftModel.Proofs.Text.Ordered

namespace SwiftModel.Emission
open SwiftModel.Identifier SwiftModel.Text SwiftModel.Unicode

/-- Options are accepted exactly if the root has the name of a type that is not reserved, every
interface is named as a type, and there is something to indent by. -/
theorem refusal?_eq_none_iff {options : Options} :
    options.refusal? = none ↔
      isIdentifier options.rootName.toList = true ∧
      options.rootName ∉ options.escaper.reserved ∧
      (∀ name ∈ options.interfaces, isTypeName name = true) ∧ options.indent ≠ .spaces 0 := by
  rw [Options.refusal?]
  constructor
  · intro h
    split at h
    next => cases h
    next identifier =>
      split at h
      next => cases h
      next free =>
        split at h
        next => cases h
        next found =>
          split at h
          next => cases h
          next indented =>
            refine ⟨by simpa using identifier, by simpa using free, ?_, indented⟩
            intro name member
            simpa using List.find?_eq_none.mp found name member
  · rintro ⟨identifier, free, names, indented⟩
    have found : options.interfaces.find? (!isTypeName ·) = none :=
      List.find?_eq_none.mpr fun name member => by simp [names name member]
    simp [identifier, free, found, indented]

theorem plain_of_isIdentifier {name : List Char} (h : isIdentifier name = true) : Plain name := by
  cases name with
  | nil => cases h
  | cons c cs =>
      rw [isIdentifier, Bool.and_eq_true, Bool.or_eq_true] at h
      refine .cons (isPlain_of_isNameCharacter ?_) fun d member =>
        isPlain_of_isNameCharacter (List.all_eq_true.mp h.2 d member)
      rw [isNameCharacter, isAlphanumeric, Bool.or_eq_true, Bool.or_eq_true]
      exact h.1.imp .inl id

theorem isPlain_of_isTypeName {name : String} (h : isTypeName name = true) {c : Char}
    (member : c ∈ name.toList) : c = '.' ∨ isPlain c = true := by
  rcases (mem_pieces member : c = '.' ∨ _) with point | ⟨piece, inside, here⟩
  · exact .inl point
  · exact .inr (plain_of_isIdentifier (List.all_eq_true.mp h piece inside) c here)

section Accepted

variable {options : Options} (valid : options.refusal? = none)
include valid

theorem plain_rootName : Plain options.rootName.toList :=
  plain_of_isIdentifier (refusal?_eq_none_iff.mp valid).1

theorem newline_not_mem_interface {name : String} (h : name ∈ options.writtenInterfaces) :
    '\n' ∉ name.toList := by
  intro member
  have named := (refusal?_eq_none_iff.mp valid).2.2.1 name (mem_ordered.mp h)
  rcases isPlain_of_isTypeName named member with point | plain
  · exact absurd point (by decide)
  · exact absurd plain (by decide)

end Accepted

end SwiftModel.Emission
