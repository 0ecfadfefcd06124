import BookCompiler.Decimal.Format

namespace BookCompiler

/-- A JSON value. Whole numbers and doubles are kept apart, and members keep their order. -/
inductive Json where
  | null
  | bool (value : Bool)
  | int (value : Int)
  | real (value : Binary64)
  | str (value : String)
  | arr (items : List Json)
  | obj (members : List (String × Json))
  deriving Repr, Inhabited

namespace Json

/-- Doubles are positional from 10^-5 up to 10^16 and always have a fraction or an exponent. -/
def numberLayout : Decimal.Layout := ⟨fun e => -5 ≤ e && e ≤ 15, true, true⟩

def realText : Binary64 → String
  | .finite negative m e => numberLayout.render (.finite negative m e)
  | .infinite _ => "null"
  | .nan => "null"

def hexDigit (n : Nat) : Char := Nat.digitChar n

def escape (c : Char) : List Char :=
  if c = '"' then ['\\', '"']
  else if c = '\\' then ['\\', '\\']
  else if c = '\n' then ['\\', 'n']
  else if c = '\r' then ['\\', 'r']
  else if c = '\t' then ['\\', 't']
  else if c = '\x08' then ['\\', 'b']
  else if c = '\x0c' then ['\\', 'f']
  else if c.toNat < 0x20 then
    ['\\', 'u', '0', '0', hexDigit (c.toNat / 16), hexDigit (c.toNat % 16)]
  else [c]

def stringText (s : String) : String :=
  String.ofList (['"'] ++ s.toList.flatMap escape ++ ['"'])

mutual

def compact : Json → String
  | .null => "null"
  | .bool b => if b then "true" else "false"
  | .int n => toString n
  | .real x => realText x
  | .str s => stringText s
  | .arr items => "[" ++ compactItems items ++ "]"
  | .obj members => "\x7b" ++ compactMembers members ++ "\x7d"

def compactItems : List Json → String
  | [] => ""
  | [x] => compact x
  | x :: rest => compact x ++ "," ++ compactItems rest

def compactMembers : List (String × Json) → String
  | [] => ""
  | [(key, x)] => stringText key ++ ":" ++ compact x
  | (key, x) :: rest => stringText key ++ ":" ++ compact x ++ "," ++ compactMembers rest

end

def margin (depth : Nat) : String := String.ofList (List.replicate (2 * depth) ' ')

mutual

def prettyAt (depth : Nat) : Json → String
  | .null => "null"
  | .bool b => if b then "true" else "false"
  | .int n => toString n
  | .real x => realText x
  | .str s => stringText s
  | .arr [] => "[]"
  | .arr items => "[\n" ++ prettyItems (depth + 1) items ++ "\n" ++ margin depth ++ "]"
  | .obj [] => "\x7b\x7d"
  | .obj members =>
    "\x7b\n" ++ prettyMembers (depth + 1) members ++ "\n" ++ margin depth ++ "\x7d"

def prettyItems (depth : Nat) : List Json → String
  | [] => ""
  | [x] => margin depth ++ prettyAt depth x
  | x :: rest => margin depth ++ prettyAt depth x ++ ",\n" ++ prettyItems depth rest

def prettyMembers (depth : Nat) : List (String × Json) → String
  | [] => ""
  | [(key, x)] => margin depth ++ stringText key ++ ": " ++ prettyAt depth x
  | (key, x) :: rest =>
    margin depth ++ stringText key ++ ": " ++ prettyAt depth x ++ ",\n" ++ prettyMembers depth rest

end

def pretty (x : Json) : String := prettyAt 0 x

end Json

end BookCompiler
