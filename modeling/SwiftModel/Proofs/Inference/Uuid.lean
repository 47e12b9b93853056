/- A text is taken for a UUID exactly if it has the canonical form of one. -/
import SwiftModel.Inference.Uuid
import SwiftModel.Proofs.Text.Pieces

namespace SwiftModel.Inference

def HexDigit (c : Char) : Prop :=
  ('0' ≤ c ∧ c ≤ '9') ∨ ('A' ≤ c ∧ c ≤ 'F') ∨ ('a' ≤ c ∧ c ≤ 'f')

/-- Five groups of hexadecimal digits, of 8, 4, 4, 4 and 12, with a hyphen between two of them. -/
def UuidForm (text : String) : Prop :=
  ∃ groups : List (List Char), text.toList = ['-'].intercalate groups ∧
    groups.map List.length = [8, 4, 4, 4, 12] ∧ ∀ group ∈ groups, ∀ c ∈ group, HexDigit c

theorem isHexDigit_iff (c : Char) : isHexDigit c = true ↔ HexDigit c := by
  unfold isHexDigit Json.hexDigit? HexDigit
  split
  next digit => simp [digit]
  next notDigit =>
    split
    next small => simp [small]
    next notSmall =>
      split
      next capital => simp [capital]
      next notCapital => simp [notDigit, notSmall, notCapital]

theorem hyphen_not_mem {group : List Char} (h : ∀ c ∈ group, HexDigit c) : '-' ∉ group := by
  intro member
  have hex : isHexDigit '-' = true := (isHexDigit_iff '-').mpr (h '-' member)
  exact absurd hex (by decide)

theorem isUuid_iff (text : String) : isUuid text = true ↔ UuidForm text := by
  have digits : ∀ groups : List (List Char), groups.all (·.all isHexDigit) = true ↔
      ∀ group ∈ groups, ∀ c ∈ group, HexDigit c := by
    intro groups
    simp only [List.all_eq_true, isHexDigit_iff]
  unfold isUuid
  rw [Bool.and_eq_true, beq_iff_eq, digits]
  constructor
  · rintro ⟨lengths, hex⟩
    exact ⟨Text.pieces '-' text.toList, (Text.intercalate_pieces '-' text.toList).symm, lengths, hex⟩
  · rintro ⟨groups, joined, lengths, hex⟩
    have cut : Text.pieces '-' text.toList = groups := by
      cases groups with
      | nil => cases lengths
      | cons group groups =>
          rw [joined]
          exact Text.pieces_intercalate fun other member => hyphen_not_mem (hex other member)
    rw [cut]
    exact ⟨lengths, hex⟩

end SwiftModel.Inference
