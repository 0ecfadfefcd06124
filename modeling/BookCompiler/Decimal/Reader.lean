import BookCompiler.Decimal.Binary64

namespace BookCompiler.Decimal

def digitValue (c : Char) : Nat := c.toNat - '0'.toNat

def valueOfDigits (digits : List Char) : Nat :=
  digits.foldl (fun n c => 10 * n + digitValue c) 0

def digitSpan (s : List Char) : List Char × List Char :=
  (s.takeWhile Char.isDigit, s.dropWhile Char.isDigit)

def signSpan : List Char → Bool × List Char
  | '-' :: s => (true, s)
  | '+' :: s => (false, s)
  | s => (false, s)

def readExponent : List Char → Option Int
  | [] => some 0
  | c :: s =>
    if c = 'e' || c = 'E' then
      let (negative, rest) := signSpan s
      if !rest.isEmpty && rest.all Char.isDigit then
        let n : Int := valueOfDigits rest
        some (if negative then -n else n)
      else none
    else none

def readMagnitude (negative : Bool) (s : List Char) : Option Binary64 := do
  let (whole, rest) := digitSpan s
  let (fraction, rest) :=
    match rest with
    | '.' :: after => digitSpan after
    | _ => ([], rest)
  if whole.isEmpty && fraction.isEmpty then none
  let exponent ← readExponent rest
  let digits := valueOfDigits (whole ++ fraction)
  some (Binary64.ofDecimal negative digits (exponent - fraction.length))

/-- Reads a number in decimal or by the name of an infinity or NaN in letters of either case. -/
def readChars (s : List Char) : Option Binary64 :=
  let (negative, rest) := signSpan s
  let word := String.ofList (rest.map Char.toLower)
  if word = "inf" || word = "infinity" then some (.infinite negative)
  else if word = "nan" then some .nan
  else readMagnitude negative rest

def read (s : String) : Option Binary64 := readChars s.toList

def readWhole (bound : Nat) (s : String) : Option Nat :=
  let digits :=
    match s.toList with
    | '+' :: rest => rest
    | other => other
  if digits.isEmpty || !digits.all Char.isDigit then none
  else
    let n := valueOfDigits digits
    if n < bound then some n else none

end BookCompiler.Decimal
