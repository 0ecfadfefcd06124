namespace BookCompiler

/-- A double-precision number: a sign, and a significand below 2^53 times a power of two that is at
least 2^-1074. The significand is at least 2^52 unless the exponent is -1074. -/
inductive Binary64 where
  | finite (negative : Bool) (significand : Nat) (exponent : Int)
  | infinite (negative : Bool)
  | nan
  deriving Repr, DecidableEq

namespace Binary64

def leastExponent : Int := -1074

def greatestExponent : Int := 971

def zero (negative : Bool) : Binary64 := .finite negative 0 leastExponent

def powerOfTwo (e : Int) : Nat × Nat := if 0 ≤ e then (Nat.pow 2 e.toNat, 1) else (1, Nat.pow 2 (-e).toNat)

/-- The quotient rounded to the nearest whole number, a tie to the even one. -/
def roundDiv (num den : Nat) : Nat :=
  let q := num / den
  let r := num % den
  if 2 * r < den || (2 * r == den && q % 2 == 0) then q else q + 1

def scaled (num den : Nat) (e : Int) : Nat × Nat :=
  let (up, down) := powerOfTwo e
  (num * down, den * up)

def exponentFor (num den : Nat) : Int :=
  let guess := max leastExponent ((num.log2 : Int) - (den.log2 : Int) - 53)
  let (n, d) := scaled num den guess
  if n / d < Nat.pow 2 53 then guess else guess + 1

def ofQuotient (negative : Bool) (num den : Nat) : Binary64 :=
  if num = 0 then zero negative
  else
    let e := exponentFor num den
    let (n, d) := scaled num den e
    let m := roundDiv n d
    let (m, e) := if m = Nat.pow 2 53 then (Nat.pow 2 52, e + 1) else (m, e)
    if greatestExponent < e then .infinite negative else .finite negative m e

/-- The double nearest to `digits * 10 ^ exponent`. Far outside the range of doubles the power of
ten is not computed. -/
def ofDecimal (negative : Bool) (digits : Nat) (exponent : Int) : Binary64 :=
  let magnitude := ((Nat.toDigits 10 digits).length : Int) + exponent
  if digits = 0 || magnitude < -330 then zero negative
  else if 330 < magnitude then .infinite negative
  else if 0 ≤ exponent then ofQuotient negative (digits * Nat.pow 10 exponent.toNat) 1
  else ofQuotient negative digits (Nat.pow 10 (-exponent).toNat)

def ofNat (n : Nat) : Binary64 := ofQuotient false n 1

/-- Equality of numbers: the two zeros are equal, and NaN equals nothing. -/
def sameNumber : Binary64 → Binary64 → Bool
  | .finite _ 0 _, .finite _ 0 _ => true
  | .nan, _ => false
  | x, y => x == y

def isBelowZero : Binary64 → Bool
  | .finite negative m _ => negative && m != 0
  | .infinite negative => negative
  | .nan => false

def atMost (n : Nat) : Binary64 → Bool
  | .finite true _ _ => true
  | .finite false m e =>
    let (up, down) := powerOfTwo e
    m * up ≤ n * down
  | .infinite negative => negative
  | .nan => false

def wholeSize? : Binary64 → Option Nat
  | .finite _ m e =>
    let (up, down) := powerOfTwo e
    if m * up % down = 0 then some (m * up / down) else none
  | .infinite _ => none
  | .nan => none

end Binary64

end BookCompiler
