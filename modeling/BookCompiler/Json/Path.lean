import BookCompiler.Decimal.Reader
import BookCompiler.Json.Codec
import BookCompiler.Text.Case

namespace BookCompiler.Json

/-- One step down a document. An index below zero counts from the end. -/
inductive Step where
  | member (name : String)
  | item (index : Int)
  deriving Repr, DecidableEq

namespace Step

inductive Part where
  | name (read : List Char)
  | index (read : List Char)
  | closed

def isNameChar (c : Char) : Bool := c.isAlphanum || c = ' ' || c = '_' || c = '-'

def readIndex? (s : List Char) : Option Int :=
  let isPad (c : Char) : Bool := c = ' ' || c = '\t'
  let s := ((s.dropWhile isPad).reverse.dropWhile isPad).reverse
  let negative := s.head? == some '-'
  let digits := if negative then s.tail else s
  let n := Decimal.valueOfDigits digits
  if digits.isEmpty || !digits.all Char.isDigit then none
  else if negative then if n ≤ Nat.pow 2 63 then some (-n) else none
  else if n < Nat.pow 2 63 then some n
  else none

def readFrom? : Part → List Char → Option (List Step)
  | .name read, [] => if read.isEmpty then none else some [.member (String.ofList read.reverse)]
  | .index _, [] => none
  | .closed, [] => some []
  | .name read, c :: s =>
    if isNameChar c then readFrom? (.name (c :: read)) s
    else if read.isEmpty then none
    else if c = '.' then (readFrom? (.name []) s).map (.member (String.ofList read.reverse) :: ·)
    else if c = '[' then (readFrom? (.index []) s).map (.member (String.ofList read.reverse) :: ·)
    else none
  | .index read, c :: s =>
    if c = ']' then do
      let index ← readIndex? read.reverse
      (readFrom? .closed s).map (.item index :: ·)
    else readFrom? (.index (c :: read)) s
  | .closed, c :: s =>
    if c = '.' then readFrom? (.name []) s
    else if c = '[' then readFrom? (.index []) s
    else none

def readPath? (s : String) : Option (List Step) := readFrom? (.name []) s.toList

end Step

def changeMember (key : String) (change : Json → Json) : Json → Json
  | .obj members =>
    match members.lookup key with
    | none => .obj (members ++ [(key, change .null)])
    | some _ => .obj (members.map fun (k, x) => (k, if k == key then change x else x))
  | _ => .obj [(key, change .null)]

def changeNamed (name : String) : (Json → Json) → Json → Json := changeMember (Text.lowered name)

def position? (length : Nat) (index : Int) : Option Nat :=
  if 0 ≤ index then some index.toNat
  else if index.natAbs ≤ length then some (length - index.natAbs)
  else none

def changeItem (index : Int) (change : Json → Json) (items : List Json) : List Json :=
  match position? items.length index with
  | none => items
  | some i => (items ++ List.replicate (i + 1 - items.length) Json.null).modify i change

mutual

/-- What stands at a place after a value is put there: the members of an object are put there one by
one, any other value takes the place. -/
def merge : Json → Json → Json
  | .obj members, old =>
    mergeMembers members (match old with
      | .obj others => .obj others
      | _ => .obj [])
  | value, _ => value

def mergeMembers : Members → Json → Json
  | [], x => x
  | (key, value) :: rest, x => mergeMembers rest (changeNamed key (merge value) x)

end

/-- Puts a value at the end of a path; what stands in the way of the path gives way. -/
def put : List Step → Json → Json → Json
  | [], value, old => merge value old
  | .member name :: rest, value, x => changeNamed name (put rest value) x
  | .item index :: rest, value, x =>
    let items := match x with
      | .arr items => items
      | _ => []
    .arr (changeItem index (fun old => if rest.isEmpty then value else put rest value old) items)

end BookCompiler.Json
