/- Which names are identifiers: those that properties are spelled with, unless a capital is none, and
all that types are spelled with. -/
import SwiftModel.Emission.Options
import SwiftModel.Proofs.Identifier.Distinct
import SwiftModel.Proofs.Text.Pieces

namespace SwiftModel.Identifier
open SwiftModel.Emission SwiftModel.Text SwiftModel.Unicode

/-- A name begins as an identifier does. -/
def Begins (name : List Char) : Prop :=
  ∃ c cs, name = c :: cs ∧ (isAlphabetic c || c == '_') = true

/-- A name is more than underscores. -/
def Named (name : List Char) : Prop := ∃ c ∈ name, c ≠ '_'

structure Legal (name : List Char) : Prop where
  identifier : isIdentifier name = true
  named : Named name

-- only the characters of a name are looked at, not all there are
instance (name : List Char) : Decidable (Named name) := List.decidableBEx (· ≠ '_') name

instance (name : List Char) : Decidable (Legal name) :=
  decidable_of_iff (isIdentifier name = true ∧ Named name)
    ⟨fun h => ⟨h.1, h.2⟩, fun h => ⟨h.identifier, h.named⟩⟩

theorem isNameCharacter_of_begins {c : Char} (h : (isAlphabetic c || c == '_') = true) :
    isNameCharacter c = true := by
  rw [isNameCharacter, isAlphanumeric, Bool.or_eq_true, Bool.or_eq_true]
  exact (Bool.or_eq_true _ _ ▸ h).imp .inl id

theorem isIdentifier_iff {name : List Char} :
    isIdentifier name = true ↔ Begins name ∧ ∀ c ∈ name, isNameCharacter c = true := by
  cases name with
  | nil => exact ⟨fun h => (nomatch h), fun ⟨⟨_, _, empty, _⟩, _⟩ => (nomatch empty)⟩
  | cons c cs =>
      rw [isIdentifier, Bool.and_eq_true, List.all_eq_true]
      constructor
      · rintro ⟨first, rest⟩
        exact ⟨⟨c, cs, rfl, first⟩, List.forall_mem_cons.mpr ⟨isNameCharacter_of_begins first, rest⟩⟩
      · rintro ⟨⟨_, _, ⟨⟩, first⟩, all⟩
        exact ⟨first, (List.forall_mem_cons.mp all).2⟩

theorem Begins.append {name : List Char} (h : Begins name) (rest : List Char) : Begins (name ++ rest) := by
  obtain ⟨c, cs, rfl, first⟩ := h
  exact ⟨c, cs ++ rest, rfl, first⟩

theorem Named.append {name : List Char} (h : Named name) (rest : List Char) : Named (name ++ rest) := by
  obtain ⟨c, member, other⟩ := h
  exact ⟨c, List.mem_append_left rest member, other⟩

theorem begins_underscore (name : List Char) : Begins ('_' :: name) := ⟨'_', name, rfl, rfl⟩

theorem Named.underscore {name : List Char} (h : Named name) : Named ('_' :: name) := by
  obtain ⟨c, member, other⟩ := h
  exact ⟨c, List.mem_cons_of_mem '_' member, other⟩

/-- An underscore may stand in front of every identifier. -/
theorem Legal.underscore {name : List Char} (h : Legal name) : Legal ('_' :: name) := by
  refine ⟨isIdentifier_iff.mpr ⟨begins_underscore name, ?_⟩, h.named.underscore⟩
  exact List.forall_mem_cons.mpr ⟨rfl, (isIdentifier_iff.mp h.identifier).2⟩

/-- Underscores behind a name change nothing about it. -/
theorem isIdentifier_append_underscores {name : List Char} (h : Begins name) (count : Nat) :
    isIdentifier (name ++ List.replicate count '_') = true ↔ isIdentifier name = true := by
  have rest : ∀ c ∈ List.replicate count '_', isNameCharacter c = true := by
    intro c member
    rw [List.eq_of_mem_replicate member]
    rfl
  rw [isIdentifier_iff, isIdentifier_iff, List.forall_mem_append, and_iff_left rest,
    and_iff_right (h.append _), and_iff_right h]

/-! A usable name begins and reads as an identifier, as far as its characters allow. -/

theorem exists_other {name : List Char} (h : ¬ name.all (· == '_') = true) : Named name := by
  rw [Bool.not_eq_true, List.all_eq_false] at h
  obtain ⟨c, member, other⟩ := h
  exact ⟨c, member, fun same => other (beq_iff_eq.mpr same)⟩

theorem named_usable (name : List Char) : Named (usable name) := by
  rw [usable]
  split
  · exact ⟨'f', by decide, by decide⟩
  next more =>
    split
    · exact (exists_other more).underscore
    · exact exists_other more

/-- Only the first character has to be one that may stand in a name. -/
theorem begins_usable {name : List Char} (h : ∀ c, name.head? = some c → isNameCharacter c = true) :
    Begins (usable name) := by
  rw [usable]
  split
  · exact ⟨'f', _, rfl, by decide⟩
  next more =>
    split
    · exact begins_underscore name
    next number =>
      cases name with
      | nil => exact absurd rfl more
      | cons c cs =>
          have first := h c rfl
          rw [List.head?_cons, Option.any_some, Bool.not_eq_true] at number
          rw [isNameCharacter, isAlphanumeric, number, Bool.or_false] at first
          exact ⟨c, cs, rfl, first⟩

theorem isIdentifier_usable_iff {name : List Char} :
    isIdentifier (usable name) = true ↔ ∀ c ∈ name, isNameCharacter c = true := by
  constructor
  · intro identifier c member
    have all := (isIdentifier_iff.mp identifier).2
    rw [usable] at all
    split at all
    next underscores =>
      rw [beq_iff_eq.mp (List.all_eq_true.mp underscores c member)]
      rfl
    next =>
      split at all
      · exact all c (List.mem_cons_of_mem '_' member)
      · exact all c member
  · intro all
    refine isIdentifier_iff.mpr ⟨begins_usable fun c first => all c (List.mem_of_head? first), ?_⟩
    rw [usable]
    split
    · exact List.all_eq_true.mp (by decide : fallback.all isNameCharacter = true)
    · split
      · exact List.forall_mem_cons.mpr ⟨rfl, all⟩
      · exact all

theorem isNameCharacter_of_mem_withoutSymbols {name : List Char} {c : Char}
    (h : c ∈ withoutSymbols name) : isNameCharacter c = true := (List.mem_filter.mp h).2

/-- Without symbols, every name is made usable. -/
theorem legal_usable_withoutSymbols (name : List Char) : Legal (usable (withoutSymbols name)) :=
  ⟨isIdentifier_usable_iff.mpr fun _ => isNameCharacter_of_mem_withoutSymbols, named_usable _⟩

/-! Properties: camel case puts capitals into a name, and nothing takes symbols out of it again. -/

/-- The letters that camel case makes capitals of: the first of each word but the first. -/
def raisedLetters (name : List Char) : List Char := (words name).tail.filterMap List.head?

theorem mem_of_mem_words {name word : List Char} {c : Char} (hw : word ∈ words name) (hc : c ∈ word) :
    c ∈ name := mem_of_mem_pieces (List.mem_filter.mp hw).1 hc

theorem ne_nil_of_mem_words {name word : List Char} (h : word ∈ words name) : word ≠ [] := by
  rintro rfl
  exact absurd (List.mem_filter.mp h).2 (by decide)

theorem mem_of_mem_leading {name : List Char} {c : Char} (h : c ∈ leading name) : c ∈ name :=
  (List.takeWhile_sublist _).subset h

theorem mem_of_mem_trailing {name : List Char} {c : Char} (h : c ∈ trailing name) : c ∈ name :=
  List.mem_reverse.mp ((List.takeWhile_sublist _).subset h)

/-- What camel case adds to the characters of a name are the capitals of its raised letters. -/
theorem forall_mem_camelCase_iff {holds : Char → Prop} {name : List Char} (all : ∀ c ∈ name, holds c) :
    (∀ c ∈ camelCase name, holds c) ↔ ∀ c ∈ raisedLetters name, ∀ d ∈ upper c, holds d := by
  rw [camelCase, raisedLetters]
  cases found : words name with
  | nil => exact ⟨fun _ _ member => (nomatch member), fun _ => all⟩
  | cons first rest =>
      have inner : ∀ word ∈ first :: rest, ∀ c ∈ word, holds c :=
        fun word hw c hc => all c (mem_of_mem_words (found ▸ hw) hc)
      rw [List.forall_mem_append, List.forall_mem_append, List.forall_mem_append, List.tail_cons]
      constructor
      · rintro ⟨⟨-, capitals⟩, -⟩ c member d inside
        obtain ⟨word, hw, first⟩ := List.mem_filterMap.mp member
        obtain ⟨cs, rfl⟩ := List.head?_eq_some_iff.mp first
        exact capitals d (List.mem_flatMap.mpr ⟨_, hw, List.mem_append_left cs inside⟩)
      · intro raised
        refine ⟨⟨⟨fun c hc => all c (mem_of_mem_leading hc), inner first List.mem_cons_self⟩, ?_⟩,
          fun c hc => all c (mem_of_mem_trailing hc)⟩
        intro d member
        obtain ⟨word, hw, inside⟩ := List.mem_flatMap.mp member
        cases word with
        | nil => cases inside
        | cons c cs =>
            rcases List.mem_append.mp inside with capital | later
            · exact raised c (List.mem_filterMap.mpr ⟨_, hw, rfl⟩) d capital
            · exact inner _ (List.mem_cons_of_mem first hw) d (List.mem_cons_of_mem c later)

/-- Camel case begins with a character of the name. -/
theorem mem_of_head?_camelCase {name : List Char} {c : Char} (h : (camelCase name).head? = some c) :
    c ∈ name := by
  rw [camelCase] at h
  split at h
  next => exact List.mem_of_head? h
  next first rest found =>
    have member : first ∈ words name := found ▸ List.mem_cons_self
    rw [List.append_assoc, List.append_assoc, List.head?_append, List.head?_append] at h
    rcases Option.or_eq_some_iff.mp h with front | ⟨-, behind⟩
    · exact mem_of_mem_leading (List.mem_of_head? front)
    · cases first with
      | nil => exact absurd rfl (ne_nil_of_mem_words member)
      | cons d ds =>
          cases behind
          exact mem_of_mem_words member List.mem_cons_self

/-- Every capital that a key is spelled with may stand in a name. -/
def PropertyNaming.RaisesWell : PropertyNaming → List Char → Prop
  | .verbatim, _ => True
  | .camelFromSnake, key =>
    ∀ c ∈ raisedLetters (withoutSymbols key), ∀ d ∈ upper c, isNameCharacter d = true

instance (naming : PropertyNaming) (key : List Char) : Decidable (naming.RaisesWell key) :=
  match naming with
  | .verbatim => isTrue trivial
  | .camelFromSnake =>
    decidable_of_iff
      ((raisedLetters (withoutSymbols key)).all fun c => (upper c).all isNameCharacter)
      (by simp only [List.all_eq_true, PropertyNaming.RaisesWell])

/-- What a name is that a key is spelled with, or made distinct from others: it begins as an identifier
and is more than underscores, and it is an identifier if its capitals may stand in names. -/
structure PropertyNaming.Spells (naming : PropertyNaming) (key name : List Char) : Prop where
  begins : Begins name
  named : Named name
  identifier : isIdentifier name = true ↔ naming.RaisesWell key

theorem PropertyNaming.spells_spell (naming : PropertyNaming) (key : List Char) :
    naming.Spells key (naming.spell key) := by
  have plain : ∀ c ∈ withoutSymbols key, isNameCharacter c = true :=
    fun _ => isNameCharacter_of_mem_withoutSymbols
  cases naming with
  | verbatim =>
      refine ⟨begins_usable fun c first => plain c (List.mem_of_head? first), named_usable _, ?_⟩
      exact iff_of_true (legal_usable_withoutSymbols key).identifier trivial
  | camelFromSnake =>
      refine ⟨begins_usable fun c first => plain c (mem_of_head?_camelCase first), named_usable _, ?_⟩
      exact isIdentifier_usable_iff.trans (forall_mem_camelCase_iff plain)

theorem PropertyNaming.Spells.append_underscores {naming : PropertyNaming} {key name : List Char}
    (h : naming.Spells key name) (count : Nat) :
    naming.Spells key (name ++ List.replicate count '_') :=
  ⟨h.begins.append _, h.named.append _,
    (isIdentifier_append_underscores h.begins count).trans h.identifier⟩

/-- Distinct names are still spelled as their keys ask for. -/
theorem PropertyNaming.forall₂_spells (naming : PropertyNaming) (keys : List String) :
    List.Forall₂ (fun key name => naming.Spells key.toList name.toList) keys
      (distinct (keys.map naming.identifier)) := by
  have each := forall₂_distinctFrom [] (keys.map naming.identifier)
  rw [List.forall₂_map_left_iff] at each
  refine each.imp ?_
  rintro key chosen ⟨count, same⟩
  rw [same, PropertyNaming.identifier, String.toList_ofList]
  exact (naming.spells_spell key.toList).append_underscores count

/-! Types: symbols are taken out behind the capitals, and what is done then keeps a name legal. -/

theorem TypeNaming.legal_spell (naming : TypeNaming) (property : List Char) :
    Legal (naming.spell property) := by
  have legal := legal_usable_withoutSymbols (naming.transform property)
  simp only [TypeNaming.spell]
  split
  · exact legal.underscore
  · exact legal

/-- A front of a name that has more than underscores in it is legal if the name is. -/
theorem Legal.front {front rest : List Char} (h : Legal (front ++ rest)) (named : Named front) :
    Legal front := by
  obtain ⟨begins, all⟩ := isIdentifier_iff.mp h.identifier
  refine ⟨isIdentifier_iff.mpr ⟨?_, (List.forall_mem_append.mp all).1⟩, named⟩
  obtain ⟨c, cs, whole, first⟩ := begins
  cases front with
  | nil =>
      obtain ⟨_, member, _⟩ := named
      cases member
  | cons d ds =>
      cases whole
      exact ⟨_, ds, rfl, first⟩

/-- A word behind a front of a name keeps it legal. -/
theorem Legal.replace {front rest word : List Char} (h : Legal (front ++ rest)) (legal : Legal word) :
    Legal (front ++ word) := by
  obtain ⟨begins, all⟩ := isIdentifier_iff.mp h.identifier
  obtain ⟨begins', all'⟩ := isIdentifier_iff.mp legal.identifier
  obtain ⟨c, member, other⟩ := legal.named
  refine ⟨isIdentifier_iff.mpr ⟨?_, ?_⟩, c, List.mem_append_right front member, other⟩
  · cases front with
    | nil => exact begins'
    | cons d ds =>
        obtain ⟨_, _, ⟨⟩, first⟩ := begins
        exact ⟨d, ds ++ word, rfl, first⟩
  · exact List.forall_mem_append.mpr ⟨(List.forall_mem_append.mp all).1, all'⟩

theorem isAlphanumeric_underscore : isAlphanumeric '_' = false := by decide +kernel

theorem Legal.singular {name : List Char} (h : Legal name) : Legal (singular name) := by
  rcases singular_cases name with ⟨stem, rfl, same⟩ | ⟨stem, rfl, ⟨c, member, letter⟩, same⟩ | same
  · rw [same]
    exact h.replace (by decide +kernel)
  · rw [same]
    refine h.front ⟨c, member, ?_⟩
    rintro rfl
    rw [isAlphanumeric_underscore] at letter
    cases letter
  · exact same.symm ▸ h

theorem TypeNaming.legal_nestedTypeName (naming : TypeNaming) (property : String) (singularize : Bool) :
    Legal (naming.nestedTypeName property singularize).toList := by
  rw [TypeNaming.nestedTypeName, String.toList_ofList]
  split
  · exact (naming.legal_spell property.toList).singular
  · exact naming.legal_spell property.toList

theorem Escaper.legal_avoidReserved (escaper : Escaper) {typeName : String} (h : Legal typeName.toList) :
    Legal (escaper.avoidReserved typeName).toList := by
  rw [Escaper.avoidReserved]
  split
  · rw [String.toList_append]
    exact h.underscore
  · exact h

/-- The name of a type is reserved only if it was reserved without the underscore in front. -/
theorem Escaper.exists_reserved {escaper : Escaper} {typeName : String}
    (h : escaper.avoidReserved typeName ∈ escaper.reserved) :
    ∃ word ∈ escaper.reserved, escaper.avoidReserved typeName = "_" ++ word := by
  rw [Escaper.avoidReserved] at h ⊢
  split at h
  next reserved =>
    rw [if_pos reserved]
    exact ⟨typeName, List.contains_iff_mem.mp reserved, rfl⟩
  next free => exact absurd (List.contains_iff_mem.mpr h) free

end SwiftModel.Identifier
