/- The normal form of camel case: the underscores at the two ends of a name stay, and what stands between
them becomes one word. A name in that form is changed no more. -/
import Mathlib.Data.List.DropRight
import SwiftModel.Json.Fault
import SwiftModel.Proofs.Identifier.Legal
import SwiftModel.Proofs.Unicode.Uppercase

namespace SwiftModel.Identifier
open SwiftModel.Json SwiftModel.Text SwiftModel.Unicode

/-- What stands between the underscores at the two ends of a name. -/
def inner (name : List Char) : List Char := (name.dropWhile (· == '_')).rdropWhile (· == '_')

/-- The words of a name in one: the first as it is, and the others with capitals in front. -/
def joined (name : List Char) : List Char :=
  match words name with
  | [] => []
  | first :: rest => first ++ rest.flatMap capitalized

/-- A text before and behind an offset that counts bytes; none if the offset falls inside a character, or
behind the text. -/
def cutAt? : Nat → List Char → Option (List Char × List Char)
  | 0, text => some ([], text)
  | _ + 1, [] => none
  | offset + 1, c :: cs =>
    if c.utf8Size ≤ offset + 1 then
      (cutAt? (offset + 1 - c.utf8Size) cs).map fun cut => (c :: cut.1, cut.2)
    else none

/-- Camel case where the two ends are cut off by bytes, as many as are missing without them. -/
def camelCaseByBytes? (name : List Char) : Option (List Char) :=
  let trimmed := name.dropWhile (· == '_')
  let core := trimmed.rdropWhile (· == '_')
  let lead := byteCount name - byteCount trimmed
  let trail := byteCount trimmed - byteCount core
  if core.isEmpty then some name
  else do
    let front ← cutAt? lead name
    let back ← cutAt? (byteCount name - trail) name
    return front.1 ++ joined core ++ back.2

def upperCamelCaseByBytes? (name : List Char) : Option (List Char) := do
  let camel ← camelCaseByBytes? name
  let body := camel.dropWhile (· == '_')
  let front ← cutAt? (byteCount camel - byteCount body) camel
  return front.1 ++ capitalized body

/-! The two ends of a name. -/

def underscores (count : Nat) : List Char := List.replicate count '_'

/-- A text that neither begins nor ends with an underscore. -/
structure Edged (text : List Char) : Prop where
  first : ∃ c cs, text = c :: cs ∧ c ≠ '_'
  last : ∃ cs c, text = cs ++ [c] ∧ c ≠ '_'

/-- A text without underscores. -/
structure IsWord (text : List Char) : Prop where
  ne_nil : text ≠ []
  whole : '_' ∉ text

variable {name text word : List Char} {front back : Nat}

theorem IsWord.edged (h : IsWord word) : Edged word := by
  constructor
  · obtain ⟨c, cs, rfl⟩ := List.exists_cons_of_ne_nil h.ne_nil
    exact ⟨c, cs, rfl, fun same => h.whole (same ▸ List.mem_cons_self)⟩
  · obtain ⟨cs, c, rfl⟩ := List.eq_nil_or_concat word |>.resolve_left h.ne_nil
    refine ⟨cs, c, by simp, fun same => h.whole ?_⟩
    simp [same]

theorem Named.of_edged (h : Edged text) : Named (underscores front ++ text ++ underscores back) := by
  obtain ⟨c, cs, rfl, other⟩ := h.first
  exact ⟨c, by simp, other⟩

theorem takeWhile_underscores (front : Nat) {rest : List Char} {c : Char} (h : c ≠ '_') :
    (underscores front ++ c :: rest).takeWhile (· == '_') = underscores front := by
  rw [List.takeWhile_append_of_pos fun d member => beq_iff_eq.mpr (List.eq_of_mem_replicate member),
    List.takeWhile_cons_of_neg (by simpa using h), List.append_nil]

theorem dropWhile_underscores (front : Nat) {rest : List Char} {c : Char} (h : c ≠ '_') :
    (underscores front ++ c :: rest).dropWhile (· == '_') = c :: rest := by
  rw [List.dropWhile_append_of_pos fun d member => beq_iff_eq.mpr (List.eq_of_mem_replicate member),
    List.dropWhile_cons_of_neg (by simpa using h)]

theorem leading_of_edged (h : Edged text) :
    leading (underscores front ++ text ++ underscores back) = underscores front := by
  obtain ⟨c, cs, rfl, other⟩ := h.first
  rw [List.append_assoc]
  exact takeWhile_underscores front other

theorem dropWhile_of_edged (h : Edged text) :
    (underscores front ++ text ++ underscores back).dropWhile (· == '_') = text ++ underscores back := by
  obtain ⟨c, cs, rfl, other⟩ := h.first
  rw [List.append_assoc]
  exact dropWhile_underscores front other

theorem reverse_edged (cs : List Char) (c : Char) (front back : Nat) :
    (underscores front ++ (cs ++ [c]) ++ underscores back).reverse =
      underscores back ++ c :: (cs.reverse ++ underscores front) := by
  simp [underscores]

theorem trailing_of_edged (h : Edged text) :
    trailing (underscores front ++ text ++ underscores back) = underscores back := by
  obtain ⟨cs, c, rfl, other⟩ := h.last
  rw [trailing, reverse_edged]
  exact takeWhile_underscores back other

theorem inner_of_edged (h : Edged text) :
    inner (underscores front ++ text ++ underscores back) = text := by
  rw [inner, dropWhile_of_edged h]
  obtain ⟨cs, c, rfl, other⟩ := h.last
  have reversed := reverse_edged cs c 0 back
  rw [underscores, List.replicate_zero, List.nil_append, List.append_nil] at reversed
  rw [List.rdropWhile, reversed, dropWhile_underscores back other]
  simp

theorem exists_front (h : Named name) : ∃ front c rest, c ≠ '_' ∧ name = underscores front ++ c :: rest := by
  induction name with
  | nil =>
      obtain ⟨c, member, -⟩ := h
      cases member
  | cons d ds ih =>
      by_cases same : d = '_'
      · obtain ⟨c, member, other⟩ := h
        have later : c ∈ ds := (List.mem_cons.mp member).resolve_left fun eq => other (eq.trans same)
        obtain ⟨front, c, rest, other, rfl⟩ := ih ⟨c, later, other⟩
        exact ⟨front + 1, c, rest, other, by rw [same]; rfl⟩
      · exact ⟨0, d, ds, same, rfl⟩

/-- A name that is more than underscores has some at its front and some at its back, and an edged text
between them. -/
theorem exists_edged (h : Named name) :
    ∃ front text back, Edged text ∧ name = underscores front ++ text ++ underscores back := by
  obtain ⟨front, c, rest, other, rfl⟩ := exists_front h
  have behind : Named (c :: rest).reverse := ⟨c, by simp, other⟩
  obtain ⟨back, d, ds, other', reversed⟩ := exists_front behind
  have same : c :: rest = ds.reverse ++ [d] ++ underscores back := by
    rw [← List.reverse_reverse (c :: rest), reversed]
    simp [underscores]
  refine ⟨front, ds.reverse ++ [d], back, ⟨?_, ds.reverse, d, rfl, other'⟩, ?_⟩
  · obtain ⟨e, es, begins⟩ := List.exists_cons_of_ne_nil (show ds.reverse ++ [d] ≠ [] by simp)
    rw [begins, List.cons_append] at same
    exact ⟨e, es, begins, (List.cons.inj same).1 ▸ other⟩
  · rw [same, List.append_assoc (underscores front)]

/-! The words of a name do not depend on its ends. -/

theorem words_append_underscore (name rest : List Char) :
    words (name ++ '_' :: rest) = words name ++ words rest := by
  rw [words, pieces_append_cons, List.filter_append]
  rfl

theorem words_underscores (front : Nat) (name : List Char) :
    words (underscores front ++ name) = words name := by
  induction front with
  | zero => rfl
  | succ front ih => exact (words_append_underscore [] (underscores front ++ name)).trans ih

theorem words_append_underscores (name : List Char) (back : Nat) :
    words (name ++ underscores back) = words name := by
  induction back with
  | zero => rw [underscores, List.replicate_zero, List.append_nil]
  | succ back ih =>
      have none : words (underscores back) = [] := by
        have dropped := words_underscores back []
        rwa [List.append_nil] at dropped
      rw [underscores, List.replicate_succ, words_append_underscore, ← underscores, none, List.append_nil]

theorem words_ends (front : Nat) (text : List Char) (back : Nat) :
    words (underscores front ++ text ++ underscores back) = words text := by
  rw [words_append_underscores, words_underscores]

theorem isWord_of_mem_words (h : word ∈ words name) : IsWord word :=
  ⟨ne_nil_of_mem_words h, sep_not_mem_of_mem_pieces (List.mem_filter.mp h).1⟩

theorem words_ne_nil (h : Named name) : words name ≠ [] := by
  obtain ⟨c, member, other⟩ := h
  obtain ⟨piece, cut, inside⟩ := (mem_pieces member).resolve_left other
  refine List.ne_nil_of_mem (List.mem_filter.mpr ⟨cut, ?_⟩)
  cases piece with
  | nil => cases inside
  | cons _ _ => rfl

theorem words_of_isWord (h : IsWord word) : words word = [word] := by
  obtain ⟨c, cs, rfl⟩ := List.exists_cons_of_ne_nil h.ne_nil
  rw [words, pieces_of_not_mem h.whole]
  rfl

/-! Capitals: the first letter of a word is raised once. -/

theorem IsWord.capitalized (h : IsWord word) : IsWord (capitalized word) := by
  obtain ⟨c, cs, rfl⟩ := List.exists_cons_of_ne_nil h.ne_nil
  obtain ⟨d, ds, raised, -⟩ := exists_upper_eq c
  constructor
  · rw [Identifier.capitalized, raised]
    exact List.cons_ne_nil _ _
  · intro member
    rcases List.mem_append.mp member with first | later
    · exact underscore_not_mem_upper (fun same => h.whole (same ▸ List.mem_cons_self)) first
    · exact h.whole (List.mem_cons_of_mem c later)

theorem capitalized_append (h : word ≠ []) (rest : List Char) :
    capitalized (word ++ rest) = capitalized word ++ rest := by
  obtain ⟨c, cs, rfl⟩ := List.exists_cons_of_ne_nil h
  simp [capitalized]

theorem capitalized_capitalized (word : List Char) : capitalized (capitalized word) = capitalized word := by
  cases word with
  | nil => rfl
  | cons c cs =>
      obtain ⟨d, ds, raised, kept⟩ := exists_upper_eq c
      rw [capitalized, raised, List.cons_append, capitalized, kept, List.singleton_append]

theorem isWord_joined (h : words name ≠ []) : IsWord (joined name) := by
  rw [joined]
  split
  next none => exact absurd none h
  next first rest found =>
    have each : ∀ word ∈ first :: rest, IsWord word := fun word member => isWord_of_mem_words (found ▸ member)
    have first := each first List.mem_cons_self
    refine ⟨fun empty => first.ne_nil (List.append_eq_nil_iff.mp empty).1, fun member => ?_⟩
    rcases List.mem_append.mp member with inside | later
    · exact first.whole inside
    · obtain ⟨word, listed, inside⟩ := List.mem_flatMap.mp later
      exact (each word (List.mem_cons_of_mem _ listed)).capitalized.whole inside

theorem joined_of_isWord (h : IsWord word) : joined word = word := by
  rw [joined, words_of_isWord h]
  exact List.append_nil word

/-! Camel case, between any two ends. -/

theorem camelCase_ends (h : Edged text) :
    camelCase (underscores front ++ text ++ underscores back) =
      underscores front ++ joined text ++ underscores back := by
  have some : words text ≠ [] := by
    have named : Named (underscores 0 ++ text ++ underscores 0) := .of_edged h
    rw [← words_ends 0 text 0]
    exact words_ne_nil named
  obtain ⟨first, rest, found⟩ := List.exists_cons_of_ne_nil some
  rw [camelCase, words_ends, joined, found, leading_of_edged h, trailing_of_edged h]
  simp

theorem camelCase_ends_of_isWord (h : IsWord word) :
    camelCase (underscores front ++ word ++ underscores back) =
      underscores front ++ word ++ underscores back := by
  rw [camelCase_ends h.edged, joined_of_isWord h]

theorem upperCamelCase_ends_of_isWord (h : IsWord word) :
    upperCamelCase (underscores front ++ word ++ underscores back) =
      underscores front ++ capitalized word ++ underscores back := by
  rw [upperCamelCase, camelCase_ends_of_isWord h, leading_of_edged h.edged, dropWhile_of_edged h.edged,
    capitalized_append h.ne_nil, List.append_assoc]

theorem camelCase_of_not_named (h : ¬ Named name) : camelCase name = name := by
  have none : words name = [] := by
    by_contra some
    obtain ⟨word, rest, found⟩ := List.exists_cons_of_ne_nil some
    have member : word ∈ words name := found ▸ List.mem_cons_self
    have isWord := isWord_of_mem_words member
    obtain ⟨c, cs, rfl⟩ := List.exists_cons_of_ne_nil isWord.ne_nil
    refine h ⟨c, mem_of_mem_words member List.mem_cons_self, ?_⟩
    exact fun same => isWord.whole (same ▸ List.mem_cons_self)
  rw [camelCase, none]

theorem dropWhile_of_not_named (h : ¬ Named name) : name.dropWhile (· == '_') = [] := by
  refine List.dropWhile_eq_nil_iff.mpr fun c member => ?_
  by_contra other
  exact h ⟨c, member, fun same => other (beq_iff_eq.mpr same)⟩

theorem upperCamelCase_of_not_named (h : ¬ Named name) : upperCamelCase name = name := by
  have all := List.takeWhile_append_dropWhile (p := (· == '_')) (l := name)
  rw [dropWhile_of_not_named h, List.append_nil] at all
  rw [upperCamelCase, camelCase_of_not_named h, dropWhile_of_not_named h, leading, all]
  exact List.append_nil name

/-- Every name has a form that camel case leaves alone: it is underscores, or a word between them. -/
theorem camelCase_cases (name : List Char) :
    camelCase name = name ∧ upperCamelCase name = name ∧ ¬ Named name ∨
      ∃ front word back, IsWord word ∧ camelCase name = underscores front ++ word ++ underscores back ∧
        upperCamelCase name = underscores front ++ capitalized word ++ underscores back := by
  by_cases named : Named name
  · right
    obtain ⟨front, text, back, edged, rfl⟩ := exists_edged named
    have some := words_ne_nil named
    rw [words_ends] at some
    have word := isWord_joined some
    refine ⟨front, joined text, back, word, camelCase_ends edged, ?_⟩
    rw [upperCamelCase, camelCase_ends edged, leading_of_edged word.edged, dropWhile_of_edged word.edged,
      capitalized_append word.ne_nil, List.append_assoc]
  · exact .inl ⟨camelCase_of_not_named named, upperCamelCase_of_not_named named, named⟩

theorem camelCase_camelCase (name : List Char) : camelCase (camelCase name) = camelCase name := by
  rcases camelCase_cases name with ⟨same, -, -⟩ | ⟨front, word, back, isWord, camel, -⟩
  · rw [same, same]
  · rw [camel, camelCase_ends_of_isWord isWord]

theorem upperCamelCase_camelCase (name : List Char) :
    upperCamelCase (camelCase name) = upperCamelCase name := by
  rw [upperCamelCase, upperCamelCase, camelCase_camelCase]

theorem upperCamelCase_upperCamelCase (name : List Char) :
    upperCamelCase (upperCamelCase name) = upperCamelCase name := by
  rcases camelCase_cases name with ⟨-, same, -⟩ | ⟨front, word, back, isWord, -, upper⟩
  · rw [same, same]
  · rw [upper, upperCamelCase_ends_of_isWord isWord.capitalized, capitalized_capitalized]

/-! Cutting by bytes: the offsets are those of whole characters. -/

theorem byteCount_append (text rest : List Char) :
    byteCount (text ++ rest) = byteCount text + byteCount rest := by
  induction text with
  | nil => exact (Nat.zero_add _).symm
  | cons c cs ih => rw [List.cons_append, byteCount, byteCount, ih, Nat.add_assoc]

theorem cutAt?_byteCount (text rest : List Char) :
    cutAt? (byteCount text) (text ++ rest) = some (text, rest) := by
  induction text with
  | nil => rw [byteCount, List.nil_append, cutAt?]
  | cons c cs ih =>
      have size := c.utf8Size_pos
      obtain ⟨offset, same⟩ := Nat.exists_eq_succ_of_ne_zero (show c.utf8Size + byteCount cs ≠ 0 by omega)
      have left : offset + 1 - c.utf8Size = byteCount cs := by omega
      rw [byteCount, same, List.cons_append, cutAt?, if_pos (by omega), left, ih]
      rfl

theorem camelCaseByBytes?_eq (name : List Char) : camelCaseByBytes? name = some (camelCase name) := by
  by_cases named : Named name
  · obtain ⟨front, text, back, edged, rfl⟩ := exists_edged named
    have core : (text ++ underscores back).rdropWhile (· == '_') = text := by
      have whole : inner (underscores 0 ++ text ++ underscores back) = text := inner_of_edged edged
      rwa [inner, dropWhile_of_edged edged] at whole
    have some : text.isEmpty = false := by
      obtain ⟨c, cs, rfl, -⟩ := edged.first
      rfl
    have lead : byteCount (underscores front ++ text ++ underscores back) -
        byteCount (text ++ underscores back) = byteCount (underscores front) := by
      simp only [byteCount_append]
      omega
    have upTo : byteCount (underscores front ++ text ++ underscores back) -
        (byteCount (text ++ underscores back) - byteCount text) = byteCount (underscores front ++ text) := by
      simp only [byteCount_append]
      omega
    have first := cutAt?_byteCount (underscores front) (text ++ underscores back)
    rw [← List.append_assoc] at first
    have last := cutAt?_byteCount (underscores front ++ text) (underscores back)
    rw [camelCaseByBytes?, dropWhile_of_edged edged, core, camelCase_ends edged]
    simp only [some, lead, upTo, first, last, Bool.false_eq_true, if_false, Option.bind_eq_bind,
      Option.bind_some, Option.pure_def]
  · have none : ((name.dropWhile (· == '_')).rdropWhile (· == '_')).isEmpty = true := by
      rw [dropWhile_of_not_named named]
      rfl
    rw [camelCaseByBytes?, camelCase_of_not_named named]
    simp only [none, if_true]

theorem upperCamelCaseByBytes?_eq (name : List Char) :
    upperCamelCaseByBytes? name = some (upperCamelCase name) := by
  have whole : (camelCase name).takeWhile (· == '_') ++ (camelCase name).dropWhile (· == '_') =
      camelCase name := List.takeWhile_append_dropWhile
  have lead : byteCount (camelCase name) - byteCount ((camelCase name).dropWhile (· == '_')) =
      byteCount (leading (camelCase name)) := by
    rw [leading, ← Nat.add_sub_cancel (n := byteCount ((camelCase name).takeWhile (· == '_')))
      (m := byteCount ((camelCase name).dropWhile (· == '_'))), ← byteCount_append, whole]
  have cut := cutAt?_byteCount (leading (camelCase name)) ((camelCase name).dropWhile (· == '_'))
  rw [leading, whole, ← leading] at cut
  rw [upperCamelCaseByBytes?, camelCaseByBytes?_eq]
  simp only [Option.bind_eq_bind, Option.bind_some, lead, cut, Option.pure_def]
  rfl

/-- A name that is more than underscores keeps those at its ends, and its words become one between them; a
name of underscores stays. No cut falls inside a character, and a second turn changes nothing. -/
theorem camelCase_normal_form (name : List Char) :
    (Named name → name = leading name ++ inner name ++ trailing name ∧
      ∃ first rest, words (inner name) = first :: rest ∧
        camelCase name = leading name ++ (first ++ rest.flatMap capitalized) ++ trailing name ∧
        first ++ rest.flatMap capitalized ≠ [] ∧ '_' ∉ first ++ rest.flatMap capitalized) ∧
      (¬ Named name → camelCase name = name) ∧
      camelCaseByBytes? name = some (camelCase name) ∧
      upperCamelCaseByBytes? name = some (upperCamelCase name) ∧
      camelCase (camelCase name) = camelCase name ∧
      upperCamelCase (upperCamelCase name) = upperCamelCase name ∧
      upperCamelCase (camelCase name) = upperCamelCase name := by
  refine ⟨fun named => ?_, camelCase_of_not_named, camelCaseByBytes?_eq name, upperCamelCaseByBytes?_eq name,
    camelCase_camelCase name, upperCamelCase_upperCamelCase name, upperCamelCase_camelCase name⟩
  have some := words_ne_nil named
  obtain ⟨front, text, back, edged, rfl⟩ := exists_edged named
  rw [words_ends] at some
  rw [leading_of_edged edged, trailing_of_edged edged, inner_of_edged edged, camelCase_ends edged]
  obtain ⟨first, rest, found⟩ := List.exists_cons_of_ne_nil some
  have same : joined text = first ++ rest.flatMap capitalized := by rw [joined, found]
  have word := isWord_joined some
  rw [same] at word ⊢
  exact ⟨rfl, first, rest, found, rfl, word.ne_nil, word.whole⟩

/-- Several underscores at an end and between words, and letters of more than one byte. -/
def umlauts : List Char := "__weg__über_ßen_".toList

theorem camelCase_normal_form_umlauts :
    camelCase umlauts = "__wegÜberSSen_".toList ∧ camelCaseByBytes? umlauts = some (camelCase umlauts) ∧
      Named umlauts ∧ ∃ first rest, words (inner umlauts) = first :: rest ∧
        '_' ∉ first ++ rest.flatMap capitalized := by
  have named : Named umlauts := by decide +kernel
  obtain ⟨form, -, cut, -⟩ := camelCase_normal_form umlauts
  obtain ⟨-, first, rest, found, -, -, whole⟩ := form named
  exact ⟨by decide +kernel, cut, named, first, rest, found, whole⟩

end SwiftModel.Identifier
