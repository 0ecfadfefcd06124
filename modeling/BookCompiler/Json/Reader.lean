import BookCompiler.Decimal.Reader
import BookCompiler.Json.Codec

namespace BookCompiler.Json

structure Dialect where
  allowed : Char → Bool
  joins : Char → Bool
  joined : List Char → List Char
  pairs : Bool

def Dialect.json : Dialect := ⟨fun c => 0x20 ≤ c.toNat, fun _ => false, id, true⟩

def isBreak (c : Char) : Bool :=
  c = '\n' || c = '\r' || c = '\u0085' || c = '\u2028' || c = '\u2029'

def breaks : List Char → List Char
  | [] => []
  | '\r' :: '\n' :: s => '\n' :: breaks s
  | c :: s =>
    if c = '\u2028' || c = '\u2029' then c :: breaks s
    else if isBreak c then '\n' :: breaks s
    else breaks s

/-- Blanks around line breaks are dropped. The first line feed is dropped before further breaks, and
is a space when there are none. -/
def folded (run : List Char) : List Char :=
  match breaks run with
  | [] => run
  | ['\n'] => [' ']
  | '\n' :: more => more
  | all => all

def isYamlChar (c : Char) : Bool :=
  let n := c.toNat
  n == 0x09 || n == 0x0a || n == 0x0d || (0x20 ≤ n && n ≤ 0x7e) || n == 0x85 ||
    (0xa0 ≤ n && n ≤ 0xfffd) || 0x10000 ≤ n

def Dialect.yaml : Dialect :=
  ⟨isYamlChar, fun c => c = ' ' || c = '\t' || isBreak c, folded, false⟩

def isSpace (c : Char) : Bool := c = ' ' || c = '\n' || c = '\r' || c = '\t'

def skipSpace (s : List Char) : List Char := s.dropWhile isSpace

def hexValue? (c : Char) : Option Nat :=
  if c.isDigit then some (c.toNat - '0'.toNat)
  else if 'a' ≤ c && c ≤ 'f' then some (c.toNat - 'a'.toNat + 10)
  else if 'A' ≤ c && c ≤ 'F' then some (c.toNat - 'A'.toNat + 10)
  else none

def hexNumber? (digits : List Char) : Option Nat :=
  digits.foldlM (fun n c => (hexValue? c).map fun d => 16 * n + d) 0

def isHighUnit (n : Nat) : Bool := 0xd800 ≤ n && n < 0xdc00

def isLowUnit (n : Nat) : Bool := 0xdc00 ≤ n && n < 0xe000

def ofUnits (high low : Nat) : Char :=
  Char.ofNat (0x10000 + (high - 0xd800) * 0x400 + (low - 0xdc00))

def ofEscape? (c : Char) : Option Char :=
  [('"', '"'), ('\\', '\\'), ('/', '/'), ('b', '\x08'), ('f', '\x0c'), ('n', '\n'), ('r', '\r'),
   ('t', '\t')].lookup c

/-- Reads quoted text up to its closing quote. What is read so far stands in `done`, and the stretch
to be joined in `run`, both with the last character first; `high` is a unit that waits for its
partner. -/
def readText (d : Dialect) (high : Option Nat) (run done : List Char) :
    List Char → Option (String × List Char)
  | [] => none
  | '\\' :: 'u' :: a :: b :: c :: e :: s => do
    let n ← hexNumber? [a, b, c, e]
    let done := (d.joined run.reverse).reverse ++ done
    match high with
    | some high =>
      if isLowUnit n then readText d none [] (ofUnits high n :: done) s else none
    | none =>
      if isHighUnit n then if d.pairs then readText d (some n) [] done s else none
      else if isLowUnit n then none
      else readText d none [] (Char.ofNat n :: done) s
  | '\\' :: c :: s => do
    let c ← ofEscape? c
    if high.isSome then none
    else readText d none [] (c :: ((d.joined run.reverse).reverse ++ done)) s
  | c :: s =>
    if high.isSome || !d.allowed c then none
    else if c = '"' then some (String.ofList (done.reverse ++ d.joined run.reverse), s)
    else if d.joins c then readText d none (c :: run) done s
    else readText d none [] (c :: ((d.joined run.reverse).reverse ++ done)) s

def isNumberEnd (s : List Char) : Bool :=
  let (fraction, rest) :=
    match s with
    | '.' :: s => ((Decimal.digitSpan s).1.isEmpty, (Decimal.digitSpan s).2)
    | s => (false, s)
  !fraction && (Decimal.readExponent rest).isSome

def isNumber (s : List Char) : Bool :=
  let (digits, rest) := Decimal.digitSpan (if s.head? == some '-' then s.tail else s)
  (digits == ['0'] || (!digits.isEmpty && digits.head? != some '0')) && isNumberEnd rest

def ofNumber? (s : List Char) : Option Json :=
  let (negative, digits) := Decimal.signSpan s
  let n := Decimal.valueOfDigits digits
  if !isNumber s then none
  else if digits.all Char.isDigit && !negative && n < UInt64.size then some (.int n)
  else if digits.all Char.isDigit && negative && 0 < n && n ≤ Nat.pow 2 63 then some (.int (-n))
  else
    match Decimal.readChars s with
    | some (.finite negative m e) => some (.real (.finite negative m e))
    | _ => none

def isNumberChar (c : Char) : Bool :=
  c.isDigit || c = '-' || c = '+' || c = '.' || c = 'e' || c = 'E'

mutual

def readValue (d : Dialect) : (fuel : Nat) → List Char → Option (Json × List Char)
  | 0, _ => none
  | fuel + 1, s =>
    match skipSpace s with
    | '"' :: s => (readText d none [] [] s).map fun (t, s) => (.str t, s)
    | '[' :: s =>
      match skipSpace s with
      | ']' :: s => some (.arr [], s)
      | s => readItems d fuel [] s
    | '\x7b' :: s =>
      match skipSpace s with
      | '\x7d' :: s => some (.obj [], s)
      | s => readMembers d fuel [] s
    | 't' :: 'r' :: 'u' :: 'e' :: s => some (.bool true, s)
    | 'f' :: 'a' :: 'l' :: 's' :: 'e' :: s => some (.bool false, s)
    | 'n' :: 'u' :: 'l' :: 'l' :: s => some (.null, s)
    | s => (ofNumber? (s.takeWhile isNumberChar)).map fun n => (n, s.dropWhile isNumberChar)

def readItems (d : Dialect) : (fuel : Nat) → (done : List Json) → List Char →
    Option (Json × List Char)
  | 0, _, _ => none
  | fuel + 1, done, s => do
    let (x, s) ← readValue d fuel s
    match skipSpace s with
    | ',' :: s => readItems d fuel (x :: done) s
    | ']' :: s => some (.arr (x :: done).reverse, s)
    | _ => none

def readMembers (d : Dialect) : (fuel : Nat) → (done : Members) → List Char →
    Option (Json × List Char)
  | 0, _, _ => none
  | fuel + 1, done, s =>
    match skipSpace s with
    | '"' :: s => do
      let (key, s) ← readText d none [] [] s
      match skipSpace s with
      | ':' :: s =>
        let (x, s) ← readValue d fuel s
        let done := (key, x) :: done.filter fun (k, _) => k != key
        match skipSpace s with
        | ',' :: s => readMembers d fuel done s
        | '\x7d' :: s => some (.obj done.reverse, s)
        | _ => none
      | _ => none
    | _ => none

end

/-- Reads a whole text. Every value takes at least one character, and an item takes two rounds. -/
def parse? (d : Dialect) (s : List Char) : Option Json :=
  match readValue d (2 * s.length + 2) s with
  | some (x, rest) => if (skipSpace rest).isEmpty then some x else none
  | none => none

end BookCompiler.Json
