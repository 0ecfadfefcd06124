import BookCompiler.Text.Blank

namespace BookCompiler

/-- Names of the values that every task receives without declaring them. -/
def reservedNames : List String :=
  ["content", "context", "knowledge", "examples", "modelName", "currentDate"]

def isReserved (name : String) : Bool := reservedNames.contains name

def braced (name : String) : String := "\x7b" ++ name ++ "\x7d"

namespace Name

inductive Fault where
  | unbalancedBraces
  | empty
  | blankInside
  | strangeCharacter
  | leadingDigit
  deriving Repr, DecidableEq

def Fault.message : Fault → String
  | unbalancedBraces => "curly braces are not balanced"
  | empty => "parameter name is empty"
  | blankInside => "parameter name can not contain whitespace"
  | strangeCharacter => "parameter name can contain only letters, digits and underscores"
  | leadingDigit => "parameter name can not start with a digit"

end Name

inductive ParameterError where
  | invalidName (raw : String) (fault : Name.Fault)
  | reservedName (name : String)
  | redefined (name first second : String)
  | conflictingRole (name : String)
  deriving Repr, DecidableEq

def ParameterError.message : ParameterError → String
  | invalidName raw fault => "Invalid parameter name \"" ++ raw ++ "\": " ++ fault.message
  | reservedName name =>
    "Parameter name " ++ braced name ++ " is reserved, please use a different name"
  | redefined name first second =>
    "Parameter " ++ braced name ++ " is defined multiple times with different descriptions:\n\n" ++
      "First definition:\n" ++ first ++ "\n\nSecond definition:\n" ++ second
  | conflictingRole name => "Parameter " ++ braced name ++ " can not be both input and output"

namespace Name

open Text

def isWordChar (c : Char) : Bool := c.isAlphanum || c = '_'

def untick (s : List Char) : List Char :=
  match stripPair '\x60' '\x60' (trim s) with
  | some inner => trim inner
  | none => trim s

def unbrace (s : List Char) : List Char := trim ((stripPair '\x7b' '\x7d' s).getD s)

def faultOf (name : List Char) : Option Fault :=
  if name.isEmpty then some .empty
  else if name.any isBlank then some .blankInside
  else if !name.all isWordChar then some .strangeCharacter
  else if (name.head?.map Char.isDigit).getD false then some .leadingDigit
  else none

/-- Reads a reference to a parameter: the name alone, in curly braces, in backticks, or in curly
braces inside backticks, with white space around each layer. -/
def readReference (raw : String) : Except ParameterError String :=
  let bare := untick raw.toList
  if (bare.head? == some '\x7b') != (bare.getLast? == some '\x7d') then
    .error (.invalidName raw .unbalancedBraces)
  else
    let name := unbrace bare
    match faultOf name with
    | some fault => .error (.invalidName raw fault)
    | none =>
      if isReserved (String.ofList name) then .error (.reservedName (String.ofList name))
      else .ok (String.ofList name)

def insert (name : String) : List String → List String
  | [] => [name]
  | first :: rest =>
    if name < first then name :: first :: rest
    else if name = first then first :: rest
    else first :: insert name rest

def sorted (names : List String) : List String := names.foldr insert []

end Name

end BookCompiler
