import BookCompiler.Json.Basic

namespace BookCompiler.Json

abbrev Members := List (String × Json)

def ofStrings (items : List String) : Json := .arr (items.map .str)

def ofOption {α : Type} (encode : α → Json) : Option α → Json
  | none => .null
  | some a => encode a

def optional {α : Type} (key : String) (encode : α → Json) : Option α → Members
  | none => []
  | some a => [(key, encode a)]

def nonempty {α : Type} (key : String) (encode : α → Json) : List α → Members
  | [] => []
  | a :: rest => [(key, .arr ((a :: rest).map encode))]

def ofUInt32 (n : UInt32) : Json := .int n.toNat

def ofUInt64 (n : UInt64) : Json := .int n.toNat

def ofReal : Binary64 → Json
  | .finite negative m e => .real (.finite negative m e)
  | .infinite _ => .null
  | .nan => .null

def string? : Json → Option String
  | .str s => some s
  | _ => none

def bool? : Json → Option Bool
  | .bool b => some b
  | _ => none

def nat? (bound : Nat) : Json → Option Nat
  | .int n => if 0 ≤ n && n < bound then some n.toNat else none
  | _ => none

def uint32? (x : Json) : Option UInt32 := (x.nat? UInt32.size).map UInt32.ofNat

def uint64? (x : Json) : Option UInt64 := (x.nat? UInt64.size).map UInt64.ofNat

/-- A whole number also stands for the double nearest to it. -/
def real? : Json → Option Binary64
  | .real x => some x
  | .int n => some (Binary64.ofQuotient (n < 0) n.natAbs 1)
  | _ => none

def list? {α : Type} (decode : Json → Option α) : Json → Option (List α)
  | .arr items => items.mapM decode
  | _ => none

/-- A name, alone or as the only member of an object, where its value is null. -/
def name? : Json → Option String
  | .str s => some s
  | .obj [(key, .null)] => some key
  | _ => none

def commandName? : Json → Option String
  | .obj [(key, .obj [])] => some key
  | x => x.name?

def members? : Json → Option Members
  | .obj members => some members
  | _ => none

/-- The members of a record with these fields. A record may also be an array of their values in
order, of which the last ones may be missing. -/
def record? (fields : List String) : Json → Option Members
  | .obj members => some members
  | .arr values => if values.length ≤ fields.length then some (fields.zip values) else none
  | _ => none

def required {α : Type} (members : Members) (key : String) (decode : Json → Option α) : Option α :=
  (members.lookup key).bind decode

def maybe {α : Type} (members : Members) (key : String) (decode : Json → Option α) :
    Option (Option α) :=
  match members.lookup key with
  | none => some none
  | some .null => some none
  | some x => (decode x).map some

def orElse {α : Type} (members : Members) (key : String) (default : α)
    (decode : Json → Option α) : Option α :=
  match members.lookup key with
  | none => some default
  | some x => decode x

end BookCompiler.Json
