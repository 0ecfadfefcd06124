import BookCompiler.Markdown.Return
import BookCompiler.Pipeline.Task
import BookCompiler.Script.JavaScript
import BookCompiler.Script.Python

namespace BookCompiler

namespace Script

def Language.freeNames (language : Language) (limits : Limits) (script : List Char) :
    Except Failure (List String) :=
  match language with
  | .javascript => JavaScript.freeNames limits false script
  | .typescript => JavaScript.freeNames limits true script
  | .python => Python.freeNames limits script

/-- The names that a script in the tagged language reads without declaring them, in increasing
order. A name declared anywhere in the script counts as declared everywhere. -/
def freeNames (limits : Limits) (tag script : String) : Except Failure (List String) :=
  match Language.ofTag? tag with
  | none => .error (.fault (.unsupportedLanguage tag))
  | some language => (language.freeNames limits script.toList).map Name.sorted

end Script

def placeholderAt? (s : List Char) : Option String :=
  match Markdown.bracedName? s with
  | some (c :: name, _) => if c.isDigit then none else some (String.ofList (c :: name))
  | _ => none

def placeholdersIn : List Char → List String
  | [] => []
  | c :: s => (placeholderAt? (c :: s)).toList ++ placeholdersIn s

def placeholders (text : String) : List String := Name.sorted (placeholdersIn text.toList)

namespace Task

def contentNames (t : Task) (limits : Script.Limits) : Except Script.Failure (List String) :=
  match t.type, t.language with
  | .script, none => .error (.fault (.noLanguage t.title))
  | .script, some language => Script.freeNames limits language t.content
  | _, _ => .ok (placeholders t.content)

/-- A task that runs over parts of a parameter depends on that parameter and not on the parts. -/
def withLoop (loop : Option Foreach) (names : List String) : List String :=
  match loop with
  | none => names
  | some f => Name.insert f.parameter (names.filter (!f.inputs.contains ·))

def neededNames (t : Task) (limits : Script.Limits) : Except Script.Failure (List String) := do
  let described := (t.description.map placeholders).getD []
  let content ← t.contentNames limits
  let prepared := (t.prepared.map placeholders).getD []
  let names := Name.sorted (placeholders t.title ++ described ++ content ++ prepared ++ t.jokers)
  pure ((withLoop t.foreach names).filter (!isReserved ·))

end Task

end BookCompiler
