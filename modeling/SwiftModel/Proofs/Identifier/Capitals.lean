/- The name of a type never begins with a small letter if the name of its property does. -/
import SwiftModel.Identifier.Naming

namespace SwiftModel.Identifier
open SwiftModel.Text SwiftModel.Unicode

/-- A name that begins with one of the small letters of ASCII. -/
def StartsSmall (name : List Char) : Prop := ∃ c cs, name = c :: cs ∧ c.isLower = true

/-- A capital that keeps its place at the front of a name. -/
def isLeadingCapital (c : Char) : Bool :=
  isNameCharacter c && !isNumeric c && c != '_' && !c.isLower

theorem upper_small : ∀ n < 123, 97 ≤ n →
    (match upper (Char.ofNat n) with
      | [capital] => isLeadingCapital capital
      | _ => false) = true := by decide +kernel

theorem isLower_iff {c : Char} : c.isLower = true ↔ 97 ≤ c.toNat ∧ c.toNat ≤ 122 := by
  change (decide (c.val ≥ 97) && decide (c.val ≤ 122)) = true ↔ _
  rw [Bool.and_eq_true, decide_eq_true_iff, decide_eq_true_iff]
  exact Iff.rfl

theorem upper_of_isLower {c : Char} (h : c.isLower = true) :
    ∃ capital, upper c = [capital] ∧ isLeadingCapital capital = true := by
  obtain ⟨low, high⟩ := isLower_iff.mp h
  have known := upper_small c.toNat (Nat.lt_succ_of_le high) low
  rw [Char.ofNat_toNat] at known
  split at known
  next capital same => exact ⟨capital, same, known⟩
  next => cases known

theorem ne_underscore_of_isLower {c : Char} (h : c.isLower = true) : c ≠ '_' := by
  rintro rfl
  cases h

theorem leading_cons {c : Char} (hc : c ≠ '_') (cs : List Char) : leading (c :: cs) = [] :=
  List.takeWhile_cons_of_neg fun same => hc (eq_of_beq same)

theorem camelCase_cons {c : Char} (hc : c ≠ '_') (cs : List Char) :
    ∃ rest, camelCase (c :: cs) = c :: rest := by
  have first : ∃ word others, words (c :: cs) = (c :: word) :: others := by
    rw [words, pieces, if_neg hc]
    split
    next => exact ⟨_, _, rfl⟩
    next => exact ⟨_, _, rfl⟩
  obtain ⟨word, others, known⟩ := first
  rw [camelCase, known, leading_cons hc]
  exact ⟨_, rfl⟩

theorem transform_of_startsSmall (naming : TypeNaming) {property : List Char}
    (h : StartsSmall property) :
    ∃ capital rest, naming.transform property = capital :: rest ∧ isLeadingCapital capital = true := by
  obtain ⟨c, cs, rfl, small⟩ := h
  obtain ⟨capital, same, leads⟩ := upper_of_isLower small
  cases naming with
  | uppercase =>
      refine ⟨capital, cs.flatMap upper, ?_, leads⟩
      rw [TypeNaming.transform, List.flatMap_cons, same]
      rfl
  | camelFromSnake =>
      have hc := ne_underscore_of_isLower small
      obtain ⟨rest, camel⟩ := camelCase_cons hc cs
      have kept : (c :: rest).dropWhile (· == '_') = c :: rest :=
        List.dropWhile_cons_of_neg fun underscore => hc (eq_of_beq underscore)
      refine ⟨capital, rest, ?_, leads⟩
      rw [TypeNaming.transform, upperCamelCase, camel, leading_cons hc, kept, capitalized, same]
      rfl

theorem spell_of_startsSmall (naming : TypeNaming) {property : List Char}
    (h : StartsSmall property) : ∃ c cs, naming.spell property = c :: cs ∧ c.isLower = false := by
  obtain ⟨capital, rest, transformed, leads⟩ := transform_of_startsSmall naming h
  simp only [isLeadingCapital, Bool.and_eq_true, bne_iff_ne, Bool.not_eq_true'] at leads
  obtain ⟨⟨⟨isName, number⟩, underscore⟩, large⟩ := leads
  have spelled : usable (withoutSymbols (naming.transform property)) =
      capital :: withoutSymbols rest := by
    rw [transformed, withoutSymbols, List.filter_cons_of_pos isName, usable, if_neg, if_neg]
    · rfl
    · rw [List.head?_cons, Option.any_some, number]
      exact Bool.false_ne_true
    · rw [List.all_cons, beq_eq_false_iff_ne.mpr underscore]
      exact Bool.false_ne_true
  rw [TypeNaming.spell, spelled]
  split
  · exact ⟨'_', _, rfl, rfl⟩
  · exact ⟨capital, _, rfl, large⟩

/-- The singular keeps a capital in front: what it cuts off begins with a small letter. -/
theorem singular_cons {c : Char} (hc : c.isLower = false) (cs : List Char) :
    ∃ rest, singular (c :: cs) = c :: rest := by
  have front : ∀ {stem ending : List Char}, c :: cs = stem ++ ending →
      ending.head?.any Char.isLower = true → ∃ rest, stem = c :: rest := by
    intro stem ending whole small
    cases stem with
    | nil =>
        rw [List.nil_append] at whole
        rw [← whole, List.head?_cons, Option.any_some, hc] at small
        cases small
    | cons d ds => exact ⟨ds, congrArg (· :: ds) (List.cons.inj whole).1.symm⟩
  rcases singular_cases (c :: cs) with ⟨stem, whole, same⟩ | ⟨stem, whole, -, same⟩ | same
  · obtain ⟨rest, rfl⟩ := front whole rfl
    exact ⟨rest ++ ['t', 'y'], same⟩
  · obtain ⟨rest, rfl⟩ := front whole rfl
    exact ⟨rest, same⟩
  · exact ⟨cs, same⟩

/-- Below a property with a small letter in front stands a type without one. -/
theorem not_startsSmall_nestedTypeName (naming : TypeNaming) {property : String}
    (h : StartsSmall property.toList) (singularize : Bool) :
    ¬ StartsSmall (naming.nestedTypeName property singularize).toList := by
  obtain ⟨c, cs, spelled, large⟩ := spell_of_startsSmall naming h
  rw [TypeNaming.nestedTypeName, String.toList_ofList, spelled]
  have front : ∃ rest, (if singularize = true then singular (c :: cs) else c :: cs) = c :: rest := by
    split
    · exact singular_cons large cs
    · exact ⟨cs, rfl⟩
  obtain ⟨rest, same⟩ := front
  rw [same]
  rintro ⟨d, ds, whole, small⟩
  cases whole
  rw [large] at small
  cases small

end SwiftModel.Identifier
