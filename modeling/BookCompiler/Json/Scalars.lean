import BookCompiler.Decimal.Reader
import BookCompiler.Json.Codec
import BookCompiler.Text.Case

namespace BookCompiler

def Binary64.nearestWord : Binary64 → UInt64
  | .finite true _ _ => 0
  | .finite false m e =>
    let (up, down) := powerOfTwo e
    UInt64.ofNat (min ((2 * m * up + down) / (2 * down)) (UInt64.size - 1))
  | .infinite negative => if negative then 0 else UInt64.ofNat (UInt64.size - 1)
  | .nan => 0

namespace Json

/-- How the values of a document are understood. -/
structure Scalars where
  record : (fields : List String) → Json → Option Members
  text : Json → Option String
  flag : Json → Option Bool
  word : Json → Option UInt64

namespace Scalars

def strict : Scalars := ⟨record?, string?, bool?, uint64?⟩

def writtenText : Json → Option String
  | .str s => some s
  | .arr _ => none
  | .obj _ => none
  | x => some x.compact

def written : Scalars := ⟨record?, writtenText, bool?, uint64?⟩

def trueWords : List String := ["true", "on", "yes"]

def falseWords : List String := ["false", "off", "no"]

def looseRecord (fields : List String) : Json → Option Members
  | .arr values => some (fields.zip values)
  | x => x.members?

def signed : Json → Json
  | .int n => if n < Nat.pow 2 63 then .int n else .real (Binary64.ofQuotient false n.natAbs 1)
  | x => x

def looseText (x : Json) : Option String :=
  match signed x with
  | .str s => some s
  | .bool b => some (if b then "true" else "false")
  | .int n => some (toString n)
  | .real x => some (Decimal.plain.render x)
  | _ => none

def looseFlag : Json → Option Bool
  | .bool b => some b
  | .int n => some (n ≠ 0)
  | .real x => some (!x.sameNumber (.zero false))
  | .str s =>
    let word := Text.lowered s
    if word = "1" || trueWords.contains word then some true
    else if word = "0" || falseWords.contains word then some false
    else none
  | _ => none

def looseWord (x : Json) : Option UInt64 :=
  match signed x with
  | .bool b => some (if b then 1 else 0)
  | .real x => some x.nearestWord
  | .str s =>
    let word := Text.lowered s
    if trueWords.contains word then some 1
    else if falseWords.contains word then some 0
    else (Decimal.readWhole UInt64.size s).map UInt64.ofNat
  | x => x.uint64?

/-- Values of one kind also stand for those of another. -/
def loose : Scalars := ⟨looseRecord, looseText, looseFlag, looseWord⟩

end Scalars

end Json

end BookCompiler
