import BookCompiler.Decimal.Binary64

namespace BookCompiler.Decimal

structure Scientific where
  digits : List Char
  exponent : Int
  deriving Repr, DecidableEq

def magnitude (num den : Nat) : Int :=
  if den ≤ num then ((Nat.toDigits 10 (num / den)).length : Int) - 1
  else
    let places := (Nat.toDigits 10 den).length - (Nat.toDigits 10 num).length
    if den ≤ num * Nat.pow 10 places then -(places : Int) else -(places : Int) - 1

def powerOfTen (e : Int) : Nat × Nat := if 0 ≤ e then (Nat.pow 10 e.toNat, 1) else (1, Nat.pow 10 (-e).toNat)

/-- The reals that round to a double, as fractions over a common denominator; the ends belong to it
exactly if the significand is even. -/
structure Cell where
  low : Nat
  value : Nat
  high : Nat
  den : Nat
  closed : Bool

def Cell.contains (cell : Cell) (num den : Nat) : Bool :=
  if cell.closed then cell.low * den ≤ num * cell.den && num * cell.den ≤ cell.high * den
  else cell.low * den < num * cell.den && num * cell.den < cell.high * den

def cellOf (m : Nat) (e : Int) : Cell :=
  let (up, down) := Binary64.powerOfTwo (e - 2)
  let below := if m = Nat.pow 2 52 && Binary64.leastExponent < e then 1 else 2
  { low := (4 * m - below) * up, value := 4 * m * up, high := (4 * m + 2) * up, den := down
    closed := m % 2 == 0 }

def Cell.onGrid? (cell : Cell) (e : Int) : Option Nat :=
  let (up, down) := powerOfTen e
  let num := cell.value * down
  let den := cell.den * up
  let below := num / den
  let inside (n : Nat) : Bool := cell.contains (n * up) down
  let nearBelow := 2 * (num % den) < den || (2 * (num % den) == den && below % 2 == 0)
  if inside below && (nearBelow || !inside (below + 1)) then some below
  else if inside (below + 1) then some (below + 1)
  else none

def Cell.firstGrid (cell : Cell) : (fuel : Nat) → (e : Int) → Nat × Int
  | 0, e => (cell.value * (powerOfTen e).2 / (cell.den * (powerOfTen e).1), e)
  | fuel + 1, e =>
    match cell.onGrid? e with
    | some n => (n, e)
    | none => cell.firstGrid fuel (e - 1)

def dropTrailingZeros (digits : List Char) : List Char :=
  (digits.reverse.dropWhile (· = '0')).reverse

/-- The fewest digits that read back as the double with this significand and exponent, and of those
the nearest. -/
def shortest (m : Nat) (e : Int) : Scientific :=
  if m = 0 then ⟨['0'], 0⟩
  else
    let cell := cellOf m e
    let (n, grid) := cell.firstGrid 17 (magnitude cell.value cell.den)
    let digits := Nat.toDigits 10 n
    ⟨dropTrailingZeros digits, grid + digits.length - 1⟩

end BookCompiler.Decimal
