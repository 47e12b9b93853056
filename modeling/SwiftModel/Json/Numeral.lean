/- Numbers as JSON writes them, and the values they have. -/
import SwiftModel.Json.Fault
import SwiftModel.Json.Value

namespace SwiftModel.Json

structure Exponent where
  negative : Bool
  digits : List Char
deriving DecidableEq

structure Numeral where
  negative : Bool
  whole : List Char
  /-- The digits behind the point; none if there is no point. -/
  fraction : List Char
  exponent : Option Exponent
deriving DecidableEq

def spanDigits (text : List Char) : List Char × List Char :=
  (text.takeWhile Char.isDigit, text.dropWhile Char.isDigit)

/-- Reads a fraction, if there is one; fails with the text where a digit is missing. -/
def scanFraction : List Char → Except (List Char) (List Char × List Char)
  | '.' :: text =>
    match spanDigits text with
    | ([], rest) => .error rest
    | found => .ok found
  | text => .ok ([], text)

def scanExponentDigits (negative : Bool) (text : List Char) :
    Except (List Char) (Option Exponent × List Char) :=
  match spanDigits text with
  | ([], rest) => .error rest
  | (digits, rest) => .ok (some ⟨negative, digits⟩, rest)

def scanExponentSign : List Char → Except (List Char) (Option Exponent × List Char)
  | '+' :: text => scanExponentDigits false text
  | '-' :: text => scanExponentDigits true text
  | text => scanExponentDigits false text

def scanExponent : List Char → Except (List Char) (Option Exponent × List Char)
  | 'e' :: text | 'E' :: text => scanExponentSign text
  | text => .ok (none, text)

/-- Reads the digits in front of the point: a zero has none behind it. -/
def scanWhole (text : List Char) : Except (List Char) (List Char × List Char) :=
  match spanDigits text with
  | ([], rest) => .error rest
  | ('0' :: d :: ds, rest) => .error (d :: ds ++ rest)
  | found => .ok found

def scanUnsigned (negative : Bool) (text : List Char) :
    Except (List Char) (Numeral × List Char) := do
  let (whole, text) ← scanWhole text
  let (fraction, text) ← scanFraction text
  let (exponent, text) ← scanExponent text
  return (⟨negative, whole, fraction, exponent⟩, text)

/-- Reads a number; fails with the text where a digit is missing or one too many. -/
def scanNumeral : List Char → Except (List Char) (Numeral × List Char)
  | '-' :: text => scanUnsigned true text
  | text => scanUnsigned false text

def digitValue (c : Char) : Nat := c.toNat - '0'.toNat

/-- Adds digits to a significand while it stays below `2 ^ 64`; gives the digits that are left. -/
def absorb (significand : Nat) : List Char → Nat × List Char
  | [] => (significand, [])
  | c :: cs =>
    let next := significand * 10 + digitValue c
    if next < Nat.pow 2 64 then absorb next cs else (significand, c :: cs)

/-- The value of exponent digits below `2 ^ 31`, or else how many digits lead beyond it. -/
def exponentValue (value read : Nat) : List Char → Except Nat Nat
  | [] => .ok value
  | c :: cs =>
    let next := value * 10 + digitValue c
    if next < Nat.pow 2 31 then exponentValue next (read + 1) cs else .error (read + 1)

/-- Divides by `10 ^ 308` so many times, or until nothing is left. -/
def divideOften : Nat → Magnitude → Magnitude
  | 0, a => a
  | n + 1, a => if a.isZero then a else divideOften n (a.div (.powerOfTen 308))

/-- The magnitude of `significand * 10 ^ exponent`, rounded at each step: first the significand,
then the division by each power of ten up to the 308th, or the multiplication. -/
def scale? (significand : Nat) (exponent : Int) : Option Magnitude :=
  let a := Magnitude.ofRatio significand 1
  if a.isZero then some a
  else if exponent < 0 then
    let places := exponent.natAbs
    let reduced := divideOften (places / 308) a
    some (reduced.div (.powerOfTen (places % 308)))
  else if 308 < exponent then none
  else
    let product := a.mul (.powerOfTen exponent.natAbs)
    if product.isFinite then some product else none

/-- The value of a number without fraction and exponent whose digits fit a significand. -/
def wholeValue (negative : Bool) (significand : Nat) : Number :=
  if !negative then .integer significand
  else if 0 < significand ∧ significand ≤ Nat.pow 2 63 then .integer (-significand)
  else .double ⟨true, .ofRatio significand 1⟩

/-- The value of a number that is `width` characters wide; if it is out of range, how many of them
are read when that is known. -/
def Numeral.value (n : Numeral) (width : Nat) : Except Nat Number :=
  let (whole, surplus) := absorb 0 n.whole
  if surplus.isEmpty && n.fraction.isEmpty && n.exponent.isNone then
    .ok (wholeValue n.negative whole)
  else
    let (significand, ignored) := absorb whole n.fraction
    let places : Int := surplus.length - (n.fraction.length - ignored.length : Nat)
    let scaled (exponent : Int) : Except Nat Number :=
      match scale? significand exponent with
      | some a => .ok (.double ⟨n.negative, a⟩)
      | none => .error width
    match n.exponent with
    | none => scaled places
    | some e =>
      match exponentValue 0 0 e.digits with
      | .ok value => scaled (if e.negative then places - value else places + value)
      | .error read =>
        if significand ≠ 0 ∧ !e.negative then .error (width - e.digits.length + read)
        else .ok (.double (.zero n.negative))

theorem spanDigits_length (text : List Char) :
    (spanDigits text).1.length + (spanDigits text).2.length = text.length := by
  unfold spanDigits
  rw [← List.length_append, List.takeWhile_append_dropWhile]

theorem scanWhole_length {text digits after : List Char}
    (h : scanWhole text = .ok (digits, after)) : after.length < text.length := by
  have hl := spanDigits_length text
  unfold scanWhole at h
  split at h
  next => simp at h
  next => simp at h
  next hne _ =>
    rw [Except.ok.injEq] at h
    rw [h] at hl hne
    have : digits.length ≠ 0 := fun h0 => hne after (by rw [List.length_eq_zero_iff.1 h0])
    dsimp only at hl
    omega

theorem scanFraction_length {text digits after : List Char}
    (h : scanFraction text = .ok (digits, after)) : after.length ≤ text.length := by
  unfold scanFraction at h
  split at h
  next text =>
    have hl := spanDigits_length text
    split at h
    next => simp at h
    next =>
      rw [Except.ok.injEq] at h
      rw [h] at hl
      simp only [List.length_cons] at hl ⊢
      omega
  next => grind

theorem scanExponentDigits_length {negative : Bool} {text : List Char}
    {found : Option Exponent × List Char} (h : scanExponentDigits negative text = .ok found) :
    found.2.length ≤ text.length := by
  have := spanDigits_length text
  unfold scanExponentDigits at h
  split at h <;> grind

theorem scanExponentSign_length {text : List Char} {found : Option Exponent × List Char}
    (h : scanExponentSign text = .ok found) : found.2.length ≤ text.length := by
  unfold scanExponentSign at h
  split at h
  next => exact Nat.le_succ_of_le (scanExponentDigits_length h)
  next => exact Nat.le_succ_of_le (scanExponentDigits_length h)
  next => exact scanExponentDigits_length h

theorem scanExponent_length {text : List Char} {found : Option Exponent × List Char}
    (h : scanExponent text = .ok found) : found.2.length ≤ text.length := by
  unfold scanExponent at h
  split at h
  next => exact Nat.le_succ_of_le (scanExponentSign_length h)
  next => exact Nat.le_succ_of_le (scanExponentSign_length h)
  next => grind

theorem scanUnsigned_length {negative : Bool} {text after : List Char} {n : Numeral}
    (h : scanUnsigned negative text = .ok (n, after)) : after.length < text.length := by
  unfold scanUnsigned at h
  simp only [bind, Except.bind, pure, Except.pure] at h
  split at h
  next => simp at h
  next hw =>
    split at h
    next => simp at h
    next hf =>
      split at h
      next => simp at h
      next he =>
        have hw := scanWhole_length hw
        have hf := scanFraction_length hf
        have he := scanExponent_length he
        rw [Except.ok.injEq, Prod.mk.injEq] at h
        rw [← h.2]
        omega

theorem scanNumeral_length {text after : List Char} {n : Numeral}
    (h : scanNumeral text = .ok (n, after)) : after.length < text.length := by
  unfold scanNumeral at h
  split at h
  next => exact Nat.lt_succ_of_lt (scanUnsigned_length h)
  next => exact scanUnsigned_length h

end SwiftModel.Json
