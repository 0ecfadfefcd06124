import BookCompiler.Pipeline.Requirements
import BookCompiler.Pipeline.Expectations

namespace BookCompiler

inductive TaskType where
  | prompt
  | simple
  | script
  | dialog
  deriving Repr, DecidableEq

def TaskType.name : TaskType → String
  | prompt => "PROMPT_TASK"
  | simple => "SIMPLE_TASK"
  | script => "SCRIPT_TASK"
  | dialog => "DIALOG_TASK"

/-- What a section of a book is for. Only the first four become tasks. -/
inductive SectionType where
  | prompt
  | simple
  | script
  | dialog
  | sample
  | knowledge
  | instrument
  | action
  deriving Repr, DecidableEq

namespace SectionType

def all : List SectionType :=
  [prompt, simple, script, dialog, sample, knowledge, instrument, action]

def keyword : SectionType → String
  | prompt => "PROMPT"
  | simple => "SIMPLE"
  | script => "SCRIPT"
  | dialog => "DIALOG"
  | sample => "SAMPLE"
  | knowledge => "KNOWLEDGE"
  | instrument => "INSTRUMENT"
  | action => "ACTION"

def name : SectionType → String
  | sample => "EXAMPLE"
  | other => other.keyword

def taskType : SectionType → Option TaskType
  | prompt => some .prompt
  | simple => some .simple
  | script => some .script
  | dialog => some .dialog
  | _ => none

def ofTaskType : TaskType → SectionType
  | .prompt => prompt
  | .simple => simple
  | .script => script
  | .dialog => dialog

theorem taskType_ofTaskType (t : TaskType) : (ofTaskType t).taskType = some t := by
  cases t <;> rfl

end SectionType

inductive ResultFormat where
  | json
  deriving Repr, DecidableEq

def ResultFormat.name : ResultFormat → String
  | json => "JSON"

/-- A task that runs once for each part of a parameter, such as the rows of a table. -/
structure Foreach where
  format : String
  subformat : String
  parameter : String
  inputs : List String
  output : String
  deriving Repr, DecidableEq

structure Task where
  name : String
  title : String
  description : Option String := none
  type : TaskType
  content : String
  language : Option String := none
  result : Option String := none
  dependencies : List String := []
  jokers : List String := []
  postprocessing : List String := []
  expectations : Expectations := {}
  format : Option ResultFormat := none
  foreach : Option Foreach := none
  persona : Option String := none
  requirements : Option Requirements := none
  prepared : Option String := none
  deriving Repr, DecidableEq

end BookCompiler
