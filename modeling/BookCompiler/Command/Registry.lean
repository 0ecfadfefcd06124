import BookCompiler.Command.Read
import BookCompiler.Command.Write
import BookCompiler.Notice

namespace BookCompiler

structure Registry where
  kinds : List CommandKind
  deriving Repr, DecidableEq

def CommandKind.canonicalNames (kind : CommandKind) : List String :=
  kind.allNames.map fun name => commandText name.toList

def CommandKind.deprecation (kind : CommandKind) (line : String) : List Notice :=
  let words := (Name.splitWords line.toList).map (·.map Char.toUpper)
  let text := List.intercalate ['_'] words
  match kind.deprecatedNames.find? fun name =>
      words.contains name.toList || name.toList.isPrefixOf text with
  | some name => [.deprecatedName name line kind.name]
  | none => []

namespace Registry

def builtIn : Registry := ⟨CommandKind.all⟩

def lookup (r : Registry) (name : String) (place : Place) : List CommandKind :=
  r.kinds.filter fun kind => kind.canonicalNames.contains name && kind.usableIn place

def owner? (r : Registry) (command : Command) : Option CommandKind :=
  r.kinds.find? fun kind => kind = command.kind

def supported (r : Registry) (place : Place) : List CommandKind :=
  r.kinds.filter fun kind => kind.usableIn place

def write? (r : Registry) (command : Command) : Option String :=
  (r.owner? command).bind fun kind => kind.write? command

/-- The first candidate that names something in the place decides. -/
def firstNamed (r : Registry) (place : Place) :
    List Candidate → Option (List CommandKind × NamePosition)
  | [] => none
  | candidate :: rest =>
    match r.lookup candidate.name place with
    | [] => r.firstNamed place rest
    | kinds => some (kinds, candidate.position)

def resolve (r : Registry) (place : Place) (line : CommandLine) :
    Except ParseError (CommandKind × NamePosition) :=
  match r.firstNamed place line.candidates with
  | some ([kind], position) => .ok (kind, position)
  | some (kinds, _) => .error (.ambiguousCommand line.text place kinds (r.supported place))
  | none =>
    match r.firstNamed place.other line.candidates with
    | some (kind :: _, _) => .error (.notAllowed line.text kind place (r.supported place))
    | _ => .error (.unknownCommand line.text place (r.supported place))

def read (r : Registry) (place : Place) (raw : String) : Except ParseError Command := do
  let line ← CommandLine.read raw
  let (kind, position) ← r.resolve place line
  match kind.read (line.invocation position) with
  | .ok command => pure command
  | .error cause => throw (.invalidCommand line.text kind cause)

def readNotices (r : Registry) (place : Place) (raw : String) : List Notice :=
  match CommandLine.read raw with
  | .error _ => []
  | .ok line =>
    match r.resolve place line with
    | .ok (kind, _) => kind.deprecation line.text
    | .error _ => []

end Registry

end BookCompiler
