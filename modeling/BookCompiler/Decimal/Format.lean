import BookCompiler.Decimal.Shortest

namespace BookCompiler.Decimal

/-- How a double is written: for which powers of ten of the first digit it is positional, whether a
whole number keeps a fraction, and whether a positive exponent shows its sign. -/
structure Layout where
  positional : Int → Bool
  keepFraction : Bool
  plusSign : Bool

def zeros (n : Nat) : List Char := List.replicate n '0'

def Layout.positionalText (layout : Layout) (x : Scientific) : List Char :=
  if x.exponent < 0 then ['0', '.'] ++ zeros ((-x.exponent).toNat - 1) ++ x.digits
  else
    let whole := x.exponent.toNat + 1
    if x.digits.length ≤ whole then
      x.digits ++ zeros (whole - x.digits.length) ++
        (if layout.keepFraction then ['.', '0'] else [])
    else x.digits.take whole ++ ['.'] ++ x.digits.drop whole

def Layout.exponentText (layout : Layout) (x : Scientific) : List Char :=
  let significand :=
    match x.digits with
    | [] => []
    | [d] => [d]
    | d :: rest => d :: '.' :: rest
  let sign := if x.exponent < 0 then ['-'] else if layout.plusSign then ['+'] else []
  significand ++ ['e'] ++ sign ++ Nat.toDigits 10 x.exponent.natAbs

def Layout.render (layout : Layout) : Binary64 → String
  | .nan => "NaN"
  | .infinite negative => if negative then "-inf" else "inf"
  | .finite negative m e =>
    let x := shortest m e
    let text :=
      if layout.positional x.exponent then layout.positionalText x else layout.exponentText x
    String.ofList (if negative then '-' :: text else text)

def plain : Layout := ⟨fun _ => true, false, false⟩

/-- Numbers quoted from a model: positional from 10^-4 up to 10^16, always with a fraction there. -/
def exact : Layout := ⟨fun e => -4 ≤ e && e ≤ 15, true, false⟩

end BookCompiler.Decimal
