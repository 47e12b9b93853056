/- Finite numbers of the binary64 format, with multiplication and division rounded to the nearest,
ties to even. -/

namespace SwiftModel

/-- A number `mantissa * 2 ^ exponent` without sign, its mantissa below `2 ^ 53`, its exponent no
less than -1074. -/
structure Magnitude where
  mantissa : Nat
  exponent : Int
deriving DecidableEq

/-- A finite binary64 number; zero has a sign too. -/
structure Binary64 where
  negative : Bool
  magnitude : Magnitude
deriving DecidableEq

/-- The whole number nearest to a ratio, the even one if two are. -/
def roundHalfEven (num den : Nat) : Nat :=
  let quotient := num / den
  let twice := 2 * (num % den)
  if den < twice || (twice == den && quotient % 2 == 1) then quotient + 1 else quotient

def Magnitude.zero : Magnitude := ⟨0, -1074⟩

/-- The exponent of the greatest power of two that is no more than a ratio. -/
def binaryOrder (num den : Nat) : Int :=
  let guess : Int := (num.log2 : Int) - den.log2
  if num * Nat.pow 2 (-guess).toNat < den * Nat.pow 2 guess.toNat then guess - 1 else guess

def Magnitude.ofRatio (num den : Nat) : Magnitude :=
  if num = 0 then .zero
  else
    let exponent := max (binaryOrder num den - 52) (-1074)
    let mantissa :=
      roundHalfEven (num * Nat.pow 2 (-exponent).toNat) (den * Nat.pow 2 exponent.toNat)
    if mantissa = Nat.pow 2 53 then ⟨Nat.pow 2 52, exponent + 1⟩ else ⟨mantissa, exponent⟩

/-- The magnitude nearest to `num / den * 2 ^ shift`. -/
def Magnitude.ofScaledRatio (num den : Nat) (shift : Int) : Magnitude :=
  .ofRatio (num * Nat.pow 2 shift.toNat) (den * Nat.pow 2 (-shift).toNat)

def Magnitude.mul (a b : Magnitude) : Magnitude :=
  .ofScaledRatio (a.mantissa * b.mantissa) 1 (a.exponent + b.exponent)

def Magnitude.div (a b : Magnitude) : Magnitude :=
  .ofScaledRatio a.mantissa b.mantissa (a.exponent - b.exponent)

def Magnitude.isFinite (a : Magnitude) : Bool := a.exponent ≤ 971

def Magnitude.isZero (a : Magnitude) : Bool := a.mantissa == 0

def Magnitude.powerOfTen (n : Nat) : Magnitude := .ofRatio (Nat.pow 10 n) 1

def Binary64.zero (negative : Bool) : Binary64 := ⟨negative, .zero⟩

/-- Whether a number is zero or more; both zeros are. -/
def Binary64.isNonnegative (x : Binary64) : Bool := !x.negative || x.magnitude.isZero

end SwiftModel
