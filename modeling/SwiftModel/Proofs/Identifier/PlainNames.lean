/- No name that is made out of a key holds a mark of the language: a space, a quote, a bracket. -/
import SwiftModel.Emission.Declaration
import SwiftModel.Proofs.Text.Pieces

namespace SwiftModel.Identifier
open SwiftModel.Text SwiftModel.Unicode

/-- The code points outside ASCII, and in it those of letters, digits and the underscore. -/
def isPlainCode (n : Nat) : Bool :=
  128 ≤ n || (48 ≤ n && n ≤ 57) || (65 ≤ n && n ≤ 90) || n == 95 || (97 ≤ n && n ≤ 122)

/-- A character that is no mark of the language. -/
def isPlain (c : Char) : Bool := isPlainCode c.toNat

def Plain (name : List Char) : Prop := ∀ c ∈ name, isPlain c = true

theorem ne_of_isPlain {c mark : Char} (hc : isPlain c = true) (hm : isPlain mark = false) :
    c ≠ mark := by
  rintro rfl
  rw [hc] at hm
  cases hm

theorem Plain.not_mem {name : List Char} (h : Plain name) {mark : Char}
    (hm : isPlain mark = false) : mark ∉ name := fun member => ne_of_isPlain (h mark member) hm rfl

theorem Plain.nil : Plain [] := fun _ member => nomatch member

theorem Plain.cons {c : Char} {cs : List Char} (hc : isPlain c = true) (h : Plain cs) :
    Plain (c :: cs) := List.forall_mem_cons.mpr ⟨hc, h⟩

theorem Plain.append {first second : List Char} (hf : Plain first) (hs : Plain second) :
    Plain (first ++ second) := List.forall_mem_append.mpr ⟨hf, hs⟩

theorem Plain.of_subset {part whole : List Char} (h : Plain whole) (sub : ∀ c ∈ part, c ∈ whole) :
    Plain part := fun c member => h c (sub c member)

/-! Character classes: what may stand in an identifier is plain, and stays so as a capital. -/

theorem isPlainCode_of_alphabetic :
    ∀ n < 128, alphabeticRanges.coversCode n = true → isPlainCode n = true := by decide +kernel

theorem isPlainCode_of_numeric :
    ∀ n < 128, numericRanges.coversCode n = true → isPlainCode n = true := by decide +kernel

theorem isPlainCode_of_le {n : Nat} (h : 128 ≤ n) : isPlainCode n = true := by
  simp [isPlainCode, h]

theorem isPlain_of_isNameCharacter {c : Char} (h : isNameCharacter c = true) : isPlain c = true := by
  rcases Nat.lt_or_ge c.toNat 128 with ascii | beyond
  · simp only [isNameCharacter, isAlphanumeric, Bool.or_eq_true, beq_iff_eq] at h
    rcases h with (letter | number) | rfl
    · exact isPlainCode_of_alphabetic _ ascii letter
    · exact isPlainCode_of_numeric _ ascii number
    · rfl
  · exact isPlainCode_of_le beyond

/-- Every capital of a run is a character, and plain. -/
def hasPlainCapitals (r : CaseRun) : Bool :=
  let last := r.capital + (r.last - r.first)
  (65 ≤ r.capital && last ≤ 90) || (128 ≤ r.capital && last < 0xD800)
    || (0xE000 ≤ r.capital && last < 0x110000)

theorem caseRuns_plain : caseRuns.all hasPlainCapitals = true := by decide +kernel

theorem expansions_plain :
    expansions.all (fun e => e.2.all fun n => isPlainCode (Char.ofNat n).toNat) = true := by
  decide +kernel

theorem isPlain_ofNat {n : Nat} (valid : n.isValidChar) (h : isPlainCode n = true) :
    isPlain (Char.ofNat n) = true := by
  rw [Char.ofNat, dif_pos valid]
  exact h

theorem isPlain_capital {r : CaseRun} {n : Nat} (h : hasPlainCapitals r = true)
    (hn : r.covers n = true) : isPlain (Char.ofNat (r.capital + (n - r.first))) = true := by
  simp only [hasPlainCapitals, CaseRun.covers, Bool.or_eq_true, Bool.and_eq_true, decide_eq_true_eq] at h hn
  have within : r.capital + (n - r.first) ≤ r.capital + (r.last - r.first) := by omega
  rcases h with (ascii | low) | high
  · refine isPlain_ofNat (.inl (by omega)) ?_
    simp only [isPlainCode, Bool.or_eq_true, Bool.and_eq_true, decide_eq_true_eq]
    omega
  · exact isPlain_ofNat (.inl (by omega)) (isPlainCode_of_le (by omega))
  · exact isPlain_ofNat (.inr ⟨by omega, by omega⟩) (isPlainCode_of_le (by omega))

/-- Capitals are plain whenever they are not the character itself. -/
theorem plain_upper {c : Char} (h : isPlain c = true) : Plain (upper c) := by
  intro d member
  rcases mem_upper_cases member with ⟨_, listed, n, inside, rfl⟩ | ⟨run, listed, covered, rfl⟩ | rfl
  · exact List.all_eq_true.mp (List.all_eq_true.mp expansions_plain _ listed) n inside
  · exact isPlain_capital (List.all_eq_true.mp caseRuns_plain run listed) covered
  · exact h

theorem isPlain_underscore : isPlain '_' = true := rfl

/-! Names: each way to make one keeps it plain. -/

theorem Plain.capitalized {word : List Char} (h : Plain word) : Plain (capitalized word) := by
  cases word with
  | nil => exact .nil
  | cons c cs =>
      exact (plain_upper (h c List.mem_cons_self)).append
        (h.of_subset fun d => List.mem_cons_of_mem c)

theorem Plain.words {name word : List Char} (h : Plain name) (hw : word ∈ words name) :
    Plain word :=
  h.of_subset fun _ => mem_of_mem_pieces (List.mem_filter.mp hw).1

theorem Plain.leading {name : List Char} (h : Plain name) : Plain (leading name) :=
  h.of_subset fun _ member => (List.takeWhile_sublist _).subset member

theorem Plain.trailing {name : List Char} (h : Plain name) : Plain (trailing name) :=
  h.of_subset fun _ member => List.mem_reverse.mp ((List.takeWhile_sublist _).subset member)

theorem Plain.camelCase {name : List Char} (h : Plain name) : Plain (camelCase name) := by
  rw [Identifier.camelCase]
  split
  next => exact h
  next first rest found =>
    have hword : ∀ word ∈ first :: rest, Plain word := fun word hw => h.words (found ▸ hw)
    refine ((h.leading.append (hword first List.mem_cons_self)).append ?_).append h.trailing
    intro c member
    obtain ⟨word, hw, hc⟩ := List.mem_flatMap.mp member
    exact (hword word (List.mem_cons_of_mem first hw)).capitalized c hc

theorem Plain.upperCamelCase {name : List Char} (h : Plain name) : Plain (upperCamelCase name) :=
  h.camelCase.leading.append
    (Plain.capitalized (h.camelCase.of_subset fun _ member => (List.dropWhile_sublist _).subset member))

theorem plain_withoutSymbols (name : List Char) : Plain (withoutSymbols name) :=
  fun _ member => isPlain_of_isNameCharacter (List.mem_filter.mp member).2

theorem Plain.usable {name : List Char} (h : Plain name) : Plain (usable name) := by
  rw [Identifier.usable]
  split
  · exact fun c member => List.all_eq_true.mp (show fallback.all isPlain = true from rfl) c member
  · split
    · exact .cons isPlain_underscore h
    · exact h

theorem PropertyNaming.plain_spell (naming : PropertyNaming) (key : List Char) :
    Plain (naming.spell key) := by
  cases naming with
  | verbatim => exact (plain_withoutSymbols key).usable
  | camelFromSnake => exact (plain_withoutSymbols key).camelCase.usable

theorem TypeNaming.plain_spell (naming : TypeNaming) (property : List Char) :
    Plain (naming.spell property) := by
  have hname := (plain_withoutSymbols (naming.transform property)).usable
  simp only [TypeNaming.spell]
  split
  · exact .cons isPlain_underscore hname
  · exact hname

theorem Plain.singular {name : List Char} (h : Plain name) : Plain (singular name) := by
  rcases singular_cases name with ⟨stem, rfl, same⟩ | ⟨stem, rfl, -, same⟩ | same
  · rw [same]
    exact .append (h.of_subset fun _ => List.mem_append_left _) (.cons rfl (.cons rfl .nil))
  · rw [same]
    exact h.of_subset fun _ => List.mem_append_left _
  · exact same.symm ▸ h

end SwiftModel.Identifier
