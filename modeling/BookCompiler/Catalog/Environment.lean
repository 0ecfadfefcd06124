import BookCompiler.Decimal.Reader
import BookCompiler.Json.Path
import BookCompiler.Text.Case

namespace BookCompiler

namespace Environment

def namePart : List Char := "promptbook_".toList

/-- Two underscores divide the names of nested values, as a point does; `more` characters are passed
over. -/
def dotted (more : Nat) : List Char → List Char
  | [] => []
  | c :: s =>
    if more ≠ 0 then dotted (more - 1) s
    else if c = '_' && s.head? == some '_' then '.' :: dotted 1 s
    else c :: dotted 0 s

def path? (name : String) : Option (List Json.Step) :=
  let name := Text.lower name.toList
  if namePart.isPrefixOf name then
    Json.Step.readPath? (String.ofList (dotted 0 (name.drop namePart.length)))
  else none

def wholeNumber? (s : String) : Option Int :=
  let (negative, digits) := Decimal.signSpan s.toList
  let n := Decimal.valueOfDigits digits
  if digits.isEmpty || !digits.all Char.isDigit then none
  else if negative then if n ≤ Nat.pow 2 63 then some (-n) else none
  else if n < Nat.pow 2 63 then some n
  else none

def value (s : String) : Json :=
  let word := Text.lowered s
  if word = "true" then .bool true
  else if word = "false" then .bool false
  else
    match wholeNumber? s, Decimal.read s with
    | some n, _ => .int n
    | none, some x => .real x
    | none, none => .str s

def override (document : Json) : List (String × String) → Json
  | [] => document
  | (name, text) :: rest =>
    let document :=
      match path? name with
      | some path => Json.put path (value text) document
      | none => document
    override document rest

end Environment

end BookCompiler
