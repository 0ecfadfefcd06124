import BookCompiler.Catalog.Assignments
import BookCompiler.Catalog.Environment
import BookCompiler.Catalog.Settings
import BookCompiler.Catalog.Shelf
import BookCompiler.Json.Reader

namespace BookCompiler

inductive SettingsError where
  | unreadable (fault : FileFault)
  | malformed
  | notLoaded (location : String)
  deriving Repr, DecidableEq

def SettingsError.message : SettingsError → String
  | unreadable fault => "I/O error: " ++ fault.message
  | malformed => "YAML error: the document does not describe settings"
  | notLoaded location => "Failed to load configuration from " ++ location

namespace Settings

def isEmptyDocument (text : List Char) : Bool :=
  (Text.lines text).all fun line =>
    let line := line.dropWhile fun c => c = ' ' || c = '\t'
    line.isEmpty || line.head? == some '#'

def ofYaml? (text : String) : Option Settings :=
  let text := text.toList
  if !text.all Json.isYamlChar then none
  else if isEmptyDocument text then some {}
  else (Json.parse? .yaml text).bind (read .written)

def ofFile (shelf : Shelf) (path : String) : Except SettingsError Settings :=
  match shelf.read path with
  | .error fault => .error (.unreadable fault)
  | .ok text =>
    match ofYaml? text with
    | some s => .ok s
    | none => .error .malformed

def location : String := "config/promptbook"

/-- The members of the document with the settings of a directory; there is none without the file.
A file whose name does not tell its format stands in the way. -/
def documentOf? (shelf : Shelf) : Option Json.Members :=
  match shelf.read location, shelf.read (location ++ ".json") with
  | .ok _, _ => some []
  | .error _, .error _ => some []
  | .error _, .ok text => (Json.parse? .json text.toList).bind Json.members?

def assembled (members : Json.Members) : Json :=
  members.foldl (fun document (name, value) =>
    Json.put ((Json.Step.readPath? name).getD [.member name]) value document) (.obj [])

def variablesOf (shelf : Shelf) (environment : List (String × String)) : List (String × String) :=
  match shelf.read ".env" with
  | .ok text => Assignments.load environment text
  | .error _ => environment

/-- The settings of a directory. Variables win over the document. -/
def load (shelf : Shelf) (environment : List (String × String)) : Except SettingsError Settings :=
  let settings := do
    let members ← documentOf? shelf
    read .loose (Environment.override (assembled members) (variablesOf shelf environment))
  match settings with
  | some s => .ok s
  | none => .error (.notLoaded location)

end Settings

end BookCompiler
