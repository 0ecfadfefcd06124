import BookCompiler.Command.Basic
import BookCompiler.Decimal.Format
import BookCompiler.Name.Reference

namespace BookCompiler

def Declaration.write (d : Declaration) : String :=
  let role := if d.isInput then "INPUT " else if d.isOutput then "OUTPUT " else ""
  let line := role ++ "PARAMETER " ++ braced d.name
  match d.description with
  | some description => line ++ " " ++ description
  | none => line

def Requirement.write : Requirement → String
  | variant v => "MODEL VARIANT " ++ v.name
  | name n => "MODEL NAME " ++ n
  | temperature t => "MODEL TEMPERATURE " ++ Decimal.plain.render t
  | maxTokens m => "MODEL MAX TOKENS " ++ toString m
  | seed s => "MODEL SEED " ++ toString s

def Foreach.write (f : Foreach) : String :=
  let subparameters := f.inputs.map braced ++ ["+" ++ braced f.output]
  "FOREACH " ++ f.format ++ " " ++ f.subformat ++ " " ++ braced f.parameter ++ " -> " ++
    String.intercalate ", " subparameters

def Command.write : Command → String
  | bookVersion version => "BOOK VERSION " ++ version
  | url address => "URL " ++ address
  | parameter declaration => declaration.write
  | persona name none => "PERSONA " ++ name
  | persona name (some description) => "PERSONA " ++ name ++ ", " ++ description
  | knowledge content => "KNOWLEDGE " ++ content
  | formfactor name => "FORMFACTOR " ++ name
  | sectionType type => type.keyword ++ " SECTION"
  | model requirement => requirement.write
  | expectAmount sign unit amount =>
    "EXPECT " ++ sign.name ++ " " ++ toString amount ++ " " ++ unit.plural
  | expectFormat format => "FORMAT " ++ format.name
  | joker name => "JOKER " ++ braced name
  | postprocess function => "POSTPROCESS " ++ function
  | foreach loop => loop.write
  | action => "ACTION"
  | instrument => "INSTRUMENT"

def CommandKind.write? (kind : CommandKind) (command : Command) : Option String :=
  if command.kind = kind then some command.write else none

end BookCompiler
