/- The lexemes of the texts of the grammar: each text is read to its end, and no further. -/
import Mathlib.Tactic.IntervalCases
import SwiftModel.Proofs.Json.Closing
import SwiftModel.Proofs.Json.Grammar

namespace SwiftModel.Json

/-- No number goes on in this text. -/
def Halts (rest : List Char) : Prop := ∀ c ∈ rest.head?, c.isDigit = false ∧ c ∉ ['.', 'e', 'E']

/-- The texts that are one lexeme, in front of every text in which it does not go on. -/
def LexesAs (holds : Token → Prop) : Language := fun text =>
  ∀ rest, Halts rest → ∃ token, holds token ∧
    lexemes (text ++ rest) = ⟨token, text ++ rest, rest⟩ :: lexemes rest

section Blanks

variable {before text : List Char}

theorem isBlank_iff {c : Char} : isBlank c = true ↔ c ∈ [' ', '\t', '\n', '\r'] := by
  simp [isBlank, or_assoc]

theorem skipBlank_append (blank : Blank before) (text : List Char) :
    skipBlank (before ++ text) = skipBlank text :=
  List.dropWhile_append_of_pos fun c member => isBlank_iff.mpr (blank c member)

theorem lexemes_append (blank : Blank before) (text : List Char) :
    lexemes (before ++ text) = lexemes text := by
  have skipped := skipBlank_append blank text
  cases next : skipBlank text with
  | nil => rw [lexemes_of_nil next, lexemes_of_nil (skipped.trans next)]
  | cons c cs => rw [lexemes_of_cons next, lexemes_of_cons (skipped.trans next)]

theorem lexemes_cons {c : Char} (solid : isBlank c = false) (cs : List Char) :
    lexemes (c :: cs) = lexemeAt c cs :: lexemes (lexemeAt c cs).after := by
  apply lexemes_of_cons
  rw [skipBlank, List.dropWhile_cons, solid]
  rfl

theorem Halts.cons {c : Char} (cs : List Char) (other : c.isDigit = false ∧ c ∉ ['.', 'e', 'E']) :
    Halts (c :: cs) := by
  rintro _ ⟨⟩
  exact other

theorem Halts.append (blank : Blank before) {rest : List Char} (halts : Halts rest) :
    Halts (before ++ rest) := by
  cases before with
  | nil => exact halts
  | cons c cs =>
      apply Halts.cons
      have member := blank c List.mem_cons_self
      simp only [List.mem_cons, List.not_mem_nil, or_false] at member
      rcases member with rfl | rfl | rfl | rfl <;> decide

end Blanks

section Strings

variable {unit : StringUnit} {units : List StringUnit} {text cs : List Char}

theorem hexDigit?_of_hexDigit {value : Nat} {c : Char} (h : HexDigit value c) : hexDigit? c = some value := by
  have short : value < 16 := by
    rcases h with h | h <;> exact (List.getElem?_eq_some_iff.mp h).1
  rcases h with h | h <;> interval_cases value <;> cases h <;> rfl

theorem simpleEscape?_of_mem {e c : Char} (member : (e, c) ∈ shortEscapes) : simpleEscape? e = some c := by
  simp only [shortEscapes, List.mem_cons, Prod.mk.injEq, List.not_mem_nil, or_false] at member
  rcases member with ⟨rfl, rfl⟩ | ⟨rfl, rfl⟩ | ⟨rfl, rfl⟩ | ⟨rfl, rfl⟩ | ⟨rfl, rfl⟩ | ⟨rfl, rfl⟩ | ⟨rfl, rfl⟩ |
    ⟨rfl, rfl⟩ <;> rfl

theorem scanString_unit (h : UnitText unit text) (rest : List Char) :
    scanString (text ++ rest) = unit.onto rest (scanString rest) := by
  cases h with
  | plain quote escape control =>
      rw [List.cons_append, List.nil_append, scanString.eq_def]
      dsimp only
      rw [if_neg quote, if_neg escape, if_neg (Nat.not_lt.mpr control)]
  | @short e c member =>
      have escaped := simpleEscape?_of_mem member
      have other : e ≠ 'u' := by
        rintro rfl
        cases escaped
      rw [List.cons_append, List.cons_append, List.nil_append, scanString.eq_def]
      simp [escaped, other]
  | code first second third fourth =>
      simp only [List.cons_append, List.nil_append]
      rw [scanString.eq_def]
      simp [hexUnit?, hexDigit?_of_hexDigit first, hexDigit?_of_hexDigit second, hexDigit?_of_hexDigit third,
        hexDigit?_of_hexDigit fourth]

theorem scanString_units (h : UnitsText units text) (rest : List Char) :
    ∃ pieces, pieces.map StringPiece.unit = units ∧
      scanString (text ++ '"' :: rest) = (pieces, .closed rest) := by
  induction h with
  | nil =>
      refine ⟨[], rfl, ?_⟩
      rw [List.nil_append, scanString.eq_def]
      rfl
  | @cons unit units first text head _ ih =>
      obtain ⟨pieces, same, scanned⟩ := ih
      refine ⟨⟨unit, text ++ '"' :: rest⟩ :: pieces, congrArg (unit :: ·) same, ?_⟩
      rw [List.append_assoc, scanString_unit head, scanned]
      rfl

theorem toNat_cases (c : Char) : c.toNat < 0xD800 ∨ 0xDFFF < c.toNat ∧ c.toNat < 0x110000 := c.valid

/-- No character is half of a pair. -/
theorem not_isSurrogate (c : Char) : isLowSurrogate c.toNat = false ∧ isHighSurrogate c.toNat = false := by
  have valid := toNat_cases c
  simp only [isLowSurrogate, isHighSurrogate, Bool.and_eq_false_iff, decide_eq_false_iff_not]
  omega

theorem isSurrogate_halves {c : Char} {high low : Nat} (value : c.toNat = 0x10000 + high * 0x400 + low)
    (least : low < 0x400) : isLowSurrogate (0xD800 + high) = false ∧ isHighSurrogate (0xD800 + high) = true ∧
      isLowSurrogate (0xDC00 + low) = true := by
  have valid := toNat_cases c
  simp only [isLowSurrogate, isHighSurrogate, Bool.and_eq_false_iff, Bool.and_eq_true,
    decide_eq_false_iff_not, decide_eq_true_iff]
  omega

theorem decodePieces_of_characters (h : Characters units cs) {pieces : List StringPiece}
    (same : pieces.map StringPiece.unit = units) (after : List Char) :
    decodePieces (.closed after) pieces = .ok cs := by
  induction h generalizing pieces with
  | nil =>
      rw [List.map_eq_nil_iff.mp same]
      rfl
  | plain _ ih =>
      obtain ⟨⟨_, behind⟩, pieces, rfl, rfl, others⟩ := List.map_eq_cons_iff.mp same
      rw [decodePieces, ih others]
      rfl
  | @single c units cs small _ ih =>
      obtain ⟨⟨_, behind⟩, pieces, rfl, rfl, others⟩ := List.map_eq_cons_iff.mp same
      rw [decodePieces.eq_def]
      simp only [not_isSurrogate c, ih others, Char.ofNat_toNat]
      rfl
  | @pair c units cs high low value least _ ih =>
      obtain ⟨⟨_, behind⟩, more, rfl, rfl, others⟩ := List.map_eq_cons_iff.mp same
      obtain ⟨⟨_, behind'⟩, pieces, rfl, rfl, rest⟩ := List.map_eq_cons_iff.mp others
      have whole : surrogatePair (0xD800 + high) (0xDC00 + low) = c := by
        rw [surrogatePair, Nat.add_sub_cancel_left, Nat.add_sub_cancel_left, ← value, Char.ofNat_toNat]
      rw [decodePieces.eq_def]
      simp only [isSurrogate_halves value least, whole, ih rest]
      rfl

theorem lexemes_quoted {pieces : List StringPiece} {body rest : List Char}
    (scanned : scanString (body ++ '"' :: rest) = (pieces, .closed rest)) :
    lexemes ('"' :: (body ++ ['"']) ++ rest) =
      ⟨.string (decodeString (pieces, .closed rest)), '"' :: (body ++ ['"']) ++ rest, rest⟩ ::
        lexemes rest := by
  have lexeme : lexemeAt '"' (body ++ '"' :: rest) =
      ⟨.string (decodeString (pieces, .closed rest)), '"' :: (body ++ '"' :: rest), rest⟩ := by
    rw [lexemeAt, stringLexeme, scanned]
  rw [List.cons_append, List.append_assoc, List.cons_append, List.nil_append, lexemes_cons rfl, lexeme]

theorem lexesAs_quoted (quoted : QuotedText text) :
    LexesAs (fun token => ∃ content, token = .string content) text := by
  obtain ⟨units, body, spelled, rfl⟩ := quoted
  intro rest _
  obtain ⟨pieces, -, scanned⟩ := scanString_units spelled rest
  exact ⟨_, ⟨_, rfl⟩, lexemes_quoted scanned⟩

theorem lexesAs_string {content : String} (spelled : StringText content text) :
    LexesAs (· = .string (.ok content)) text := by
  obtain ⟨units, body, spelled, characters, rfl⟩ := spelled
  intro rest _
  obtain ⟨pieces, same, scanned⟩ := scanString_units spelled rest
  refine ⟨_, ?_, lexemes_quoted scanned⟩
  rw [decodeString, decodePieces_of_characters characters same]
  exact congrArg (fun s => Token.string (.ok s)) String.ofList_toList

end Strings

section Numbers

variable {text rest whole : List Char}

theorem isDigit_iff {c : Char} : c.isDigit = true ↔ c ∈ decimalDigits := by
  constructor
  · intro digit
    have value : ∃ n < 10, c = Char.ofNat (48 + n) := by
      rw [Char.isDigit, Bool.and_eq_true, decide_eq_true_iff, decide_eq_true_iff] at digit
      obtain ⟨least, most⟩ := digit
      refine ⟨c.toNat - 48, ?_, ?_⟩
      · have : c.toNat ≤ 57 := most
        omega
      · have : 48 ≤ c.toNat := least
        rw [Nat.add_sub_cancel' this, Char.ofNat_toNat]
    obtain ⟨n, small, rfl⟩ := value
    interval_cases n <;> decide
  · intro member
    simp only [decimalDigits, List.mem_cons, List.not_mem_nil, or_false] at member
    rcases member with rfl | rfl | rfl | rfl | rfl | rfl | rfl | rfl | rfl | rfl <;> rfl

theorem spanDigits_append {digits : List Char} (all : ∀ c ∈ digits, c ∈ decimalDigits)
    (stops : ∀ c ∈ rest.head?, c.isDigit = false) : spanDigits (digits ++ rest) = (digits, rest) := by
  have each : ∀ c ∈ digits, c.isDigit = true := fun c member => isDigit_iff.mpr (all c member)
  have none : rest.takeWhile Char.isDigit = [] ∧ rest.dropWhile Char.isDigit = rest := by
    cases rest with
    | nil => exact ⟨rfl, rfl⟩
    | cons c cs =>
        have stop := stops c rfl
        exact ⟨by rw [List.takeWhile_cons, stop]; rfl, by rw [List.dropWhile_cons, stop]; rfl⟩
  rw [spanDigits, List.takeWhile_append_of_pos each, List.dropWhile_append_of_pos each, none.1, none.2,
    List.append_nil]

theorem scanWhole_append (digits : WholeText whole) (stops : ∀ c ∈ rest.head?, c.isDigit = false) :
    scanWhole (whole ++ rest) = .ok (whole, rest) := by
  obtain ⟨⟨some, all⟩, zero⟩ := digits
  rw [scanWhole, spanDigits_append all stops]
  split
  next same => exact absurd (congrArg Prod.fst same) some
  next same =>
    cases same
    cases zero rfl
  next => rfl

theorem scanFraction_of_halts (stops : rest.head? ≠ some '.') : scanFraction rest = .ok ([], rest) := by
  unfold scanFraction
  split
  next => exact absurd rfl stops
  next => rfl

theorem scanFraction_append (fraction : FractionText text)
    (stops : ∀ c ∈ rest.head?, c.isDigit = false ∧ c ≠ '.') :
    ∃ digits, scanFraction (text ++ rest) = .ok (digits, rest) := by
  rcases fraction with rfl | ⟨digits, ⟨some, all⟩, rfl⟩
  · exact ⟨[], scanFraction_of_halts fun point => (stops '.' point).2 rfl⟩
  · refine ⟨digits, ?_⟩
    have scanned := spanDigits_append all fun c member => (stops c member).1
    rw [List.cons_append, scanFraction, scanned]
    split
    next same => exact absurd (congrArg Prod.fst same) some
    next => rfl

theorem scanExponent_of_halts (stops : ∀ c ∈ rest.head?, c ∉ ['e', 'E']) :
    scanExponent rest = .ok (none, rest) := by
  unfold scanExponent
  split
  next => exact absurd (List.mem_cons_self) (stops 'e' rfl)
  next => exact absurd (List.mem_cons_of_mem _ List.mem_cons_self) (stops 'E' rfl)
  next => rfl

theorem scanExponentDigits_append (negative : Bool) (digits : Digits text)
    (stops : ∀ c ∈ rest.head?, c.isDigit = false) :
    scanExponentDigits negative (text ++ rest) = .ok (some ⟨negative, text⟩, rest) := by
  rw [scanExponentDigits, spanDigits_append digits.2 stops]
  split
  next same => exact absurd (congrArg Prod.fst same) digits.1
  next same =>
    cases same
    rfl

theorem Digits.cons (digits : Digits text) : ∃ c cs, text = c :: cs ∧ c.isDigit = true := by
  cases text with
  | nil => exact absurd rfl digits.1
  | cons c cs => exact ⟨c, cs, rfl, isDigit_iff.mpr (digits.2 c List.mem_cons_self)⟩

theorem scanExponentSign_of_digits (digits : Digits text) (rest : List Char) :
    scanExponentSign (text ++ rest) = scanExponentDigits false (text ++ rest) := by
  obtain ⟨c, cs, rfl, digit⟩ := digits.cons
  unfold scanExponentSign
  split
  next same =>
    cases same
    cases digit
  next same =>
    cases same
    cases digit
  next => rfl

theorem scanExponent_append (exponent : ExponentText text) (halts : Halts rest) :
    ∃ found, scanExponent (text ++ rest) = .ok (found, rest) := by
  have stops : ∀ c ∈ rest.head?, c.isDigit = false := fun c member => (halts c member).1
  rcases exponent with rfl | ⟨e, sign, digits, letter, signed, spelled, rfl⟩
  · refine ⟨none, scanExponent_of_halts fun c member letter => (halts c member).2 ?_⟩
    exact List.mem_cons_of_mem _ letter
  · have letters : scanExponent (e :: (sign ++ digits ++ rest)) =
        scanExponentSign (sign ++ digits ++ rest) := by
      simp only [List.mem_cons, List.not_mem_nil, or_false] at letter
      rcases letter with rfl | rfl <;> rfl
    rw [List.cons_append, letters]
    simp only [List.mem_cons, List.not_mem_nil, or_false] at signed
    rcases signed with rfl | rfl | rfl
    · rw [List.nil_append, scanExponentSign_of_digits spelled]
      exact ⟨_, scanExponentDigits_append false spelled stops⟩
    · exact ⟨_, scanExponentDigits_append false spelled stops⟩
    · exact ⟨_, scanExponentDigits_append true spelled stops⟩

theorem scanUnsigned_append {fraction exponent : List Char} (negative : Bool) (digits : WholeText whole)
    (fractional : FractionText fraction) (raised : ExponentText exponent) (halts : Halts rest) :
    ∃ n, scanUnsigned negative (whole ++ (fraction ++ (exponent ++ rest))) = .ok (n, rest) := by
  have third : ∀ c ∈ (exponent ++ rest).head?, c.isDigit = false ∧ c ≠ '.' := by
    rcases raised with rfl | ⟨e, sign, digits, letter, -, -, rfl⟩
    · intro c member
      obtain ⟨digit, other⟩ := halts c member
      exact ⟨digit, fun point => other (point ▸ List.mem_cons_self)⟩
    · rintro _ ⟨⟩
      simp only [List.mem_cons, List.not_mem_nil, or_false] at letter
      rcases letter with rfl | rfl <;> decide
  have second : ∀ c ∈ (fraction ++ (exponent ++ rest)).head?, c.isDigit = false := by
    rcases fractional with rfl | ⟨digits, -, rfl⟩
    · exact fun c member => (third c member).1
    · rintro _ ⟨⟩
      rfl
  obtain ⟨places, scannedFraction⟩ := scanFraction_append fractional third
  obtain ⟨power, scannedExponent⟩ := scanExponent_append raised halts
  refine ⟨⟨negative, whole, places, power⟩, ?_⟩
  simp only [scanUnsigned, scanWhole_append digits second, scannedFraction, scannedExponent, bind,
    Except.bind, pure, Except.pure]

/-- Where a number begins. -/
def BeginsNumber (text : List Char) : Prop := ∃ c cs, text = c :: cs ∧ (c = '-' ∨ c.isDigit = true)

theorem Digits.beginsNumber (digits : Digits text) (rest : List Char) : BeginsNumber (text ++ rest) := by
  obtain ⟨c, cs, rfl, digit⟩ := digits.cons
  exact ⟨c, cs ++ rest, rfl, .inr digit⟩

theorem scanNumeral_of_digits (digits : Digits text) (rest : List Char) :
    scanNumeral (text ++ rest) = scanUnsigned false (text ++ rest) := by
  obtain ⟨c, cs, rfl, digit⟩ := digits.cons
  unfold scanNumeral
  split
  next same =>
    cases same
    cases digit
  next => rfl

theorem lexemeAt_number {c : Char} (begins : c = '-' ∨ c.isDigit = true) (cs : List Char) :
    lexemeAt c cs = numberLexeme (c :: cs) := by
  unfold lexemeAt
  dsimp only
  split
  case h_11 => rw [if_pos begins]
  all_goals rcases begins with begins | begins <;> cases begins

theorem lexemes_number {n : Numeral} (begins : BeginsNumber text)
    (scanned : scanNumeral (text ++ rest) = .ok (n, rest)) :
    ∃ value : Except Fault Number, (∀ number, (∀ width, n.value width = .ok number) → value = .ok number) ∧
      lexemes (text ++ rest) = ⟨.number value, text ++ rest, rest⟩ :: lexemes rest := by
  obtain ⟨c, cs, rfl, first⟩ := begins
  have solid : isBlank c = false := by
    rw [← Bool.not_eq_true, isBlank_iff]
    intro blank
    simp only [List.mem_cons, List.not_mem_nil, or_false] at blank
    rcases blank with rfl | rfl | rfl | rfl <;> rcases first with first | first <;> cases first
  rw [List.cons_append] at scanned ⊢
  rw [lexemes_cons solid, lexemeAt_number first, numberLexeme, scanned]
  refine ⟨_, fun number taken => ?_, rfl⟩
  rw [taken]

theorem lexesAs_number (number : NumberText text) :
    LexesAs (fun token => ∃ value, token = .number value) text := by
  obtain ⟨sign, whole, fraction, exponent, signed, digits, fractional, raised, rfl⟩ := number
  intro rest halts
  have scans : ∃ n, scanNumeral (sign ++ (whole ++ (fraction ++ exponent)) ++ rest) = .ok (n, rest) := by
    simp only [List.append_assoc]
    simp only [List.mem_cons, List.not_mem_nil, or_false] at signed
    rcases signed with rfl | rfl
    · rw [List.nil_append, scanNumeral_of_digits digits.1]
      exact scanUnsigned_append false digits fractional raised halts
    · exact scanUnsigned_append true digits fractional raised halts
  have begins : BeginsNumber (sign ++ (whole ++ (fraction ++ exponent))) := by
    simp only [List.mem_cons, List.not_mem_nil, or_false] at signed
    rcases signed with rfl | rfl
    · exact digits.1.beginsNumber _
    · exact ⟨'-', _, rfl, .inl rfl⟩
  obtain ⟨n, scanned⟩ := scans
  obtain ⟨value, -, lexeme⟩ := lexemes_number begins scanned
  exact ⟨_, ⟨value, rfl⟩, lexeme⟩

/-! A natural number below `2 ^ 64` is read from its digits as it is. -/

theorem le_ofDigitChars (digits : List Char) (n : Nat) : n ≤ Nat.ofDigitChars 10 digits n := by
  rw [Nat.ofDigitChars_eq_ofDigitChars_zero]
  exact Nat.le_add_right_of_le (Nat.le_mul_of_pos_left n (Nat.pow_pos (by decide)))

theorem absorb_eq {digits : List Char} {n : Nat} (small : Nat.ofDigitChars 10 digits n < 2 ^ 64) :
    absorb n digits = (Nat.ofDigitChars 10 digits n, []) := by
  induction digits generalizing n with
  | nil => rfl
  | cons c cs ih =>
      have next : 10 * n + (c.toNat - '0'.toNat) = n * 10 + digitValue c := by
        rw [digitValue, Nat.mul_comm]
      rw [Nat.ofDigitChars_cons, next] at small ⊢
      have below : n * 10 + digitValue c < Nat.pow 2 64 := Nat.lt_of_le_of_lt (le_ofDigitChars cs _) small
      rw [absorb, if_pos below, ih small]

theorem head?_toDigits {n : Nat} (positive : 0 < n) : (Nat.toDigits 10 n).head? ≠ some '0' := by
  induction n using Nat.strongRecOn with
  | ind n ih =>
      by_cases small : n < 10
      · rw [Nat.toDigits_of_lt_base small]
        intro zero
        have := Nat.digitChar_eq_zero.mp (Option.some.inj zero)
        omega
      · have earlier := ih (n / 10) (by omega) (by omega)
        have some : Nat.toDigits 10 (n / 10) ≠ [] := Nat.toDigits_ne_nil
        obtain ⟨c, cs, begun⟩ := List.exists_cons_of_ne_nil some
        rw [Nat.toDigits_of_base_le (by decide) (by omega), begun]
        rwa [begun] at earlier

theorem wholeText_toDigits (n : Nat) : WholeText (Nat.toDigits 10 n) := by
  refine ⟨⟨Nat.toDigits_ne_nil, fun c member => isDigit_iff.mp ?_⟩, fun zero => ?_⟩
  · exact Nat.isDigit_of_mem_toDigits (by decide) (by decide) member
  · rcases Nat.eq_zero_or_pos n with rfl | positive
    · rfl
    · exact absurd zero (head?_toDigits positive)

theorem lexesAs_natural {n : Nat} (small : n < 2 ^ 64) (spelled : NaturalText n text) :
    LexesAs (· = .number (.ok (.integer n))) text := by
  obtain rfl : text = Nat.toDigits 10 n := spelled
  intro rest halts
  have digits := wholeText_toDigits n
  have scanned : scanNumeral (Nat.toDigits 10 n ++ rest) =
      .ok (⟨false, Nat.toDigits 10 n, [], none⟩, rest) := by
    have first := scanWhole_append digits fun c member => (halts c member).1
    have second : scanFraction rest = .ok ([], rest) :=
      scanFraction_of_halts fun point => (halts '.' point).2 List.mem_cons_self
    have third : scanExponent rest = .ok (none, rest) :=
      scanExponent_of_halts fun c member letter => (halts c member).2 (List.mem_cons_of_mem _ letter)
    rw [scanNumeral_of_digits digits.1]
    simp only [scanUnsigned, first, second, third, bind, Except.bind, pure, Except.pure]
  have begins := digits.1.beginsNumber []
  rw [List.append_nil] at begins
  obtain ⟨value, taken, lexeme⟩ := lexemes_number begins scanned
  refine ⟨_, ?_, lexeme⟩
  rw [taken (.integer n) fun width => ?_]
  have absorbed : absorb 0 (Nat.toDigits 10 n) = (n, []) := by
    rw [absorb_eq (by rwa [Nat.ofDigitChars_ten_toDigits]), Nat.ofDigitChars_ten_toDigits]
  simp [Numeral.value, absorbed, wholeValue]

end Numbers

section Words

variable {text : List Char}

theorem lexesAs_null : LexesAs (· = .null) wordNull := by
  intro rest _
  exact ⟨_, rfl, lexemes_cons rfl _⟩

theorem lexesAs_boolean {value : Bool} (spelled : BooleanText value text) :
    LexesAs (· = .boolean value) text := by
  obtain rfl : text = wordBoolean value := spelled
  intro rest _
  cases value with
  | true => exact ⟨_, rfl, lexemes_cons rfl _⟩
  | false => exact ⟨_, rfl, lexemes_cons rfl _⟩

end Words

end SwiftModel.Json
