/- The shortest decimal that reads back as a binary64 number, and its usual notation. -/
import SwiftModel.Number.Binary64

namespace SwiftModel

structure Decimal where
  digits : Nat
  exponent : Int
deriving DecidableEq

structure Ratio where
  num : Nat
  den : Nat

def Ratio.scaled (n : Nat) (shift : Int) : Ratio :=
  ⟨n * Nat.pow 2 shift.toNat, Nat.pow 2 (-shift).toNat⟩

/-- The ratio in units of `10 ^ exponent`. -/
def Ratio.inUnits (r : Ratio) (exponent : Int) : Ratio :=
  ⟨r.num * Nat.pow 10 (-exponent).toNat, r.den * Nat.pow 10 exponent.toNat⟩

/-- Four times the bounds between which numbers round to a magnitude: half a step below it and half
a step above, but a quarter below the least magnitude of its exponent. -/
def Magnitude.bounds (a : Magnitude) : Nat × Nat :=
  let below := if a.mantissa = Nat.pow 2 52 ∧ -1074 < a.exponent then 1 else 2
  (4 * a.mantissa - below, 4 * a.mantissa + 2)

/-- Whether `digits`, in units of `10 ^ exponent`, rounds to the magnitude. -/
def Magnitude.admits (a : Magnitude) (digits : Nat) (exponent : Int) : Bool :=
  let (low, high) := a.bounds
  let lowest := (Ratio.scaled low (a.exponent - 2)).inUnits exponent
  let highest := (Ratio.scaled high (a.exponent - 2)).inUnits exponent
  if a.mantissa % 2 = 0 then
    lowest.num ≤ digits * lowest.den && digits * highest.den ≤ highest.num
  else
    lowest.num < digits * lowest.den && digits * highest.den < highest.num

/-- The decimal of a unit that lies nearest to the magnitude, of those that round to it. -/
def Magnitude.decimalAt? (a : Magnitude) (exponent : Int) : Option Decimal :=
  let exact := (Ratio.scaled a.mantissa a.exponent).inUnits exponent
  let nearest := roundHalfEven exact.num exact.den
  let below := exact.num / exact.den
  ([nearest, below, below + 1].find? (a.admits · exponent)).map (⟨·, exponent⟩)

/-- The decimal without the zeros it ends in. -/
def Decimal.normal : Nat → Decimal → Decimal
  | 0, d => d
  | fuel + 1, d =>
    if d.digits % 10 = 0 ∧ d.digits ≠ 0 then normal fuel ⟨d.digits / 10, d.exponent + 1⟩ else d

/-- The shortest decimal that rounds to a magnitude: the coarsest unit with one wins. -/
def Magnitude.shortest (a : Magnitude) : Decimal :=
  if a.isZero then ⟨0, 0⟩
  else
    let units := (List.range 640).map fun n : Nat => (309 : Int) - n
    Decimal.normal 20 ((units.findSome? a.decimalAt?).getD ⟨0, 0⟩)

def decimalDigits (n : Nat) : List Char := Nat.toDigits 10 n

/-- A decimal with a point if its first digit stands between the fifth place behind the point and
the sixteenth before it, else with an exponent and its sign. -/
def Decimal.text (d : Decimal) : List Char :=
  let digits := decimalDigits d.digits
  let point : Int := digits.length + d.exponent
  if 0 ≤ d.exponent ∧ point ≤ 16 then
    digits ++ List.replicate d.exponent.toNat '0' ++ ['.', '0']
  else if 0 < point ∧ point ≤ 16 then
    digits.take point.toNat ++ ['.'] ++ digits.drop point.toNat
  else if -5 < point ∧ point ≤ 0 then
    ['0', '.'] ++ List.replicate (-point).toNat '0' ++ digits
  else
    let exponent := point - 1
    let sign := if exponent < 0 then '-' else '+'
    digits.take 1 ++ (if digits.length = 1 then [] else '.' :: digits.drop 1)
      ++ ['e', sign] ++ decimalDigits exponent.natAbs

/-- The shortest notation that reads back as the number. -/
def Binary64.text (x : Binary64) : String :=
  .ofList ((if x.negative then ['-'] else []) ++ x.magnitude.shortest.text)

end SwiftModel
