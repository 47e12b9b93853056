/- The type that is declared for a property never has the name of the property. Two measures tell them
apart: a type has no more of the letter `s` than its property, and a singular has one less; and the
underscores in front of a property stand in front of its type too. -/
import SwiftModel.Identifier.ReservedWords
import SwiftModel.Proofs.Identifier.Capitals
import SwiftModel.Proofs.Text.Pieces

namespace SwiftModel.Identifier
open SwiftModel.Text SwiftModel.Unicode

/-! The letter `s`: no capital form has it, so that nothing but a property brings it into a name. -/

/-- The capitals of a run lie outside the small letters of ASCII. -/
def hasNoSmallCapitals (r : CaseRun) : Bool :=
  decide (r.capital + (r.last - r.first) < 97) || decide (122 < r.capital)

theorem caseRuns_large : caseRuns.all hasNoSmallCapitals = true := by decide +kernel

theorem expansions_large :
    expansions.all (fun e => e.2.all fun n => !(Char.ofNat n).isLower) = true := by decide +kernel

theorem isLower_ofNat {n : Nat} (h : n < 97 ∨ 122 < n) : (Char.ofNat n).isLower = false := by
  rw [← Bool.not_eq_true, isLower_iff]
  by_cases valid : n.isValidChar
  · rw [Char.ofNat, dif_pos valid]
    change ¬ (97 ≤ n ∧ n ≤ 122)
    omega
  · rw [Char.ofNat, dif_neg valid]
    decide

/-- A small letter has a capital, and what has none is no small letter. -/
theorem isLower_of_mem_upper {c d : Char} (h : d ∈ upper c) : d.isLower = false := by
  by_cases small : c.isLower = true
  · obtain ⟨capital, same, leads⟩ := upper_of_isLower small
    rw [same, List.mem_singleton] at h
    simp only [isLeadingCapital, Bool.and_eq_true, Bool.not_eq_true'] at leads
    exact h ▸ leads.2
  · rcases mem_upper_cases h with ⟨_, listed, n, inside, rfl⟩ | ⟨run, listed, covered, rfl⟩ | rfl
    · simpa using List.all_eq_true.mp (List.all_eq_true.mp expansions_large _ listed) n inside
    · have large := List.all_eq_true.mp caseRuns_large run listed
      simp only [hasNoSmallCapitals, CaseRun.covers, Bool.or_eq_true, Bool.and_eq_true,
        decide_eq_true_eq] at large covered
      apply isLower_ofNat
      omega
    · exact Bool.eq_false_iff.mpr small

theorem count_upper (c : Char) : (upper c).count 's' = 0 := by
  apply List.count_eq_zero.mpr
  intro member
  exact absurd (isLower_of_mem_upper member) (by decide)

theorem count_flatMap_upper (name : List Char) : (name.flatMap upper).count 's' = 0 := by
  induction name with
  | nil => rfl
  | cons c cs ih => rw [List.flatMap_cons, List.count_append, count_upper, ih]

theorem count_capitalized_le (word : List Char) : (capitalized word).count 's' ≤ word.count 's' := by
  cases word with
  | nil => exact Nat.le_refl _
  | cons c cs =>
      rw [capitalized, List.count_append, count_upper, Nat.zero_add]
      exact List.count_le_count_cons

theorem count_flatMap_capitalized_le (parts : List (List Char)) :
    (parts.flatMap capitalized).count 's' ≤ parts.flatten.count 's' := by
  induction parts with
  | nil => exact Nat.le_refl _
  | cons word parts ih =>
      rw [List.flatMap_cons, List.flatten_cons, List.count_append, List.count_append]
      exact Nat.add_le_add (count_capitalized_le word) ih

theorem count_words (name : List Char) : (words name).flatten.count 's' = name.count 's' := by
  rw [words, List.flatten_filter_not_isEmpty, flatten_pieces]
  exact List.count_filter (by decide)

theorem count_takeWhile_underscore (name : List Char) :
    (name.takeWhile (· == '_')).count 's' = 0 := by
  apply List.count_eq_zero.mpr
  intro member
  exact absurd (List.all_eq_true.mp List.all_takeWhile 's' member) (by decide)

theorem count_camelCase_le (name : List Char) : (camelCase name).count 's' ≤ name.count 's' := by
  rw [← count_words name, camelCase]
  split
  next => exact Nat.le_of_eq (count_words name).symm
  next first rest found =>
    have raised := count_flatMap_capitalized_le rest
    rw [found, List.flatten_cons, List.count_append, List.count_append, List.count_append,
      List.count_append, leading, trailing, count_takeWhile_underscore, count_takeWhile_underscore]
    omega

theorem count_transform_le (naming : TypeNaming) (property : List Char) :
    (naming.transform property).count 's' ≤ property.count 's' := by
  cases naming with
  | uppercase =>
      rw [TypeNaming.transform, count_flatMap_upper]
      exact Nat.zero_le _
  | camelFromSnake =>
      rw [TypeNaming.transform, upperCamelCase, List.count_append, leading, count_takeWhile_underscore,
        Nat.zero_add]
      calc (capitalized ((camelCase property).dropWhile (· == '_'))).count 's'
        _ ≤ ((camelCase property).dropWhile (· == '_')).count 's' := count_capitalized_le _
        _ ≤ (camelCase property).count 's' := (List.dropWhile_sublist _).count_le _
        _ ≤ property.count 's' := count_camelCase_le property

theorem count_usable_le (name : List Char) : (usable name).count 's' ≤ name.count 's' := by
  rw [usable]
  split
  · exact Nat.zero_le _
  · split
    · exact Nat.le_refl _
    · exact Nat.le_refl _

theorem count_spell_le (naming : TypeNaming) (property : List Char) :
    (naming.spell property).count 's' ≤ property.count 's' := by
  have bound : (usable (withoutSymbols (naming.transform property))).count 's' ≤
      property.count 's' :=
    calc (usable (withoutSymbols (naming.transform property))).count 's'
      _ ≤ (withoutSymbols (naming.transform property)).count 's' := count_usable_le _
      _ ≤ (naming.transform property).count 's' := List.filter_sublist.count_le _
      _ ≤ property.count 's' := count_transform_le naming property
  simp only [TypeNaming.spell]
  split
  · exact bound
  · exact bound

/-- A singular is the name itself, or has one `s` less. -/
theorem count_singular (name : List Char) :
    singular name = name ∨ (singular name).count 's' + 1 = name.count 's' := by
  rcases singular_cases name with ⟨stem, rfl, same⟩ | ⟨stem, rfl, -, same⟩ | same
  · right
    rw [same, List.count_append, List.count_append]
    rfl
  · right
    rw [same, List.count_append]
    rfl
  · exact .inl same

/-! Underscores in front: a type begins with as many as its property, or is named by the fallback. -/

/-- A name begins with at least so many underscores. -/
def Indented (count : Nat) (name : List Char) : Prop := List.replicate count '_' <+: name

theorem Indented.leading {count : Nat} {name : List Char} (h : Indented count name) :
    Indented count (leading name) := by
  obtain ⟨rest, rfl⟩ := h
  rw [Identifier.leading, List.takeWhile_append_of_pos]
  · exact List.prefix_append ..
  · intro c member
    rw [List.eq_of_mem_replicate member]
    rfl

theorem Indented.append {count : Nat} {name : List Char} (h : Indented count name)
    (rest : List Char) : Indented count (name ++ rest) := h.trans (List.prefix_append name rest)

theorem Indented.transform {count : Nat} {property : List Char} (h : Indented count property)
    (naming : TypeNaming) : Indented count (naming.transform property) := by
  cases naming with
  | uppercase =>
      obtain ⟨rest, rfl⟩ := h
      have kept : (List.replicate count '_').flatMap upper = List.replicate count '_' := by
        induction count with
        | zero => rfl
        | succ count ih =>
            rw [List.replicate_succ, List.flatMap_cons, ih]
            rfl
      rw [TypeNaming.transform, List.flatMap_append, kept]
      exact List.prefix_append ..
  | camelFromSnake =>
      have camel : Indented count (camelCase property) := by
        rw [camelCase]
        split
        · exact h
        · rw [List.append_assoc, List.append_assoc]
          exact h.leading.append _
      exact camel.leading.append _

theorem Indented.withoutSymbols {count : Nat} {name : List Char} (h : Indented count name) :
    Indented count (withoutSymbols name) := by
  have kept : (List.replicate count '_').filter isNameCharacter = List.replicate count '_' := by
    apply List.filter_eq_self.mpr
    intro c member
    rw [List.eq_of_mem_replicate member]
    rfl
  have inside := List.IsPrefix.filter isNameCharacter h
  rwa [kept] at inside

theorem Indented.usable {count : Nat} {name : List Char} (h : Indented count name) :
    usable name = fallback ∨ Indented count (usable name) := by
  rw [Identifier.usable]
  split
  · exact .inl rfl
  · right
    split
    next number =>
      -- a number in front leaves no room for underscores
      cases count with
      | zero => exact List.nil_prefix
      | succ count =>
          obtain ⟨rest, rfl⟩ := h
          rw [List.replicate_succ, List.cons_append, List.head?_cons, Option.any_some] at number
          exact absurd number (by decide +kernel)
    · exact h

/-- No underscore in front of a property is lost in its type, so that the property is not its type with
one more in front. -/
theorem underscore_usable_ne (naming : TypeNaming) (property : List Char) :
    '_' :: usable (withoutSymbols (naming.transform property)) ≠ property := by
  intro same
  have all : ∀ count, Indented count property := by
    intro count
    induction count with
    | zero => exact List.nil_prefix
    | succ count ih =>
        rcases (ih.transform naming).withoutSymbols.usable with other | inside
        · rw [other] at same
          subst same
          cases naming <;> exact absurd other (by decide +kernel)
        · rw [← same, Indented, List.replicate_succ]
          exact List.cons_prefix_cons.mpr ⟨rfl, inside⟩
  have bound := (all (property.length + 1)).length_le
  rw [List.length_replicate] at bound
  omega

theorem spell_ne (naming : TypeNaming) (property : List Char) :
    naming.spell property ≠ property ∧ '_' :: naming.spell property ≠ property := by
  simp only [TypeNaming.spell]
  split
  next same =>
    rw [same]
    constructor
    · exact List.cons_ne_self _ _
    · intro longer
      have lengths := congrArg List.length longer
      simp only [List.length_cons] at lengths
      omega
  next other => exact ⟨other, underscore_usable_ne naming property⟩

theorem singular_spell_ne (naming : TypeNaming) (property : List Char) :
    singular (naming.spell property) ≠ property ∧ '_' :: singular (naming.spell property) ≠ property := by
  rcases count_singular (naming.spell property) with same | less
  · rw [same]
    exact spell_ne naming property
  · have bound := count_spell_le naming property
    constructor
    · intro same
      rw [same] at less
      omega
    · intro same
      have counts := congrArg (List.count 's') same
      rw [List.count_cons_of_ne (by decide)] at counts
      omega

/-- A property and the type that is declared for it never share a name, however the type is named, put
into the singular, and kept from being a reserved word. -/
theorem nestedTypeName_ne_property (escaper : Escaper) (naming : TypeNaming) (property : String)
    (isArray singularElements : Bool) :
    escaper.avoidReserved (naming.nestedTypeName property (isArray && singularElements)) ≠ property := by
  have apart : (naming.nestedTypeName property (isArray && singularElements)).toList ≠ property.toList ∧
      '_' :: (naming.nestedTypeName property (isArray && singularElements)).toList ≠ property.toList := by
    rw [TypeNaming.nestedTypeName, String.toList_ofList]
    split
    · exact singular_spell_ne naming property.toList
    · exact spell_ne naming property.toList
  intro same
  rw [← String.toList_inj, Escaper.avoidReserved] at same
  split at same
  · rw [String.toList_append] at same
    exact apart.2 same
  · exact apart.1 same

/-- The singular of a type and the underscore of a reserved word, together. -/
example : Escaper.avoidReserved ⟨["City"], "", ""⟩
    (TypeNaming.camelFromSnake.nestedTypeName "cities" true) = "_City" := by decide +kernel

end SwiftModel.Identifier
