import BookCompiler.Draft.Basic

namespace BookCompiler

structure PipelineDraft where
  title : String
  url : Option String := none
  bookVersion : Option String := none
  description : Option String := none
  formfactor : Option String := none
  parameters : List ParameterDraft := []
  requirements : Option Requirements := none
  tasks : List Task := []
  knowledgeSources : List KnowledgeSource := []
  personas : List Persona := []
  sources : List Source := []
  deriving Repr, DecidableEq

def replaceFirst {α : Type} (p : α → Bool) (new : α) : List α → List α
  | [] => []
  | a :: rest => if p a then new :: rest else a :: replaceFirst p new rest

namespace PipelineDraft

def parameter? (d : PipelineDraft) (name : String) : Option ParameterDraft :=
  d.parameters.find? fun p => p.name == name

def setParameter (d : PipelineDraft) (new : ParameterDraft) : PipelineDraft :=
  { d with parameters := replaceFirst (fun p => p.name == new.name) new d.parameters }

def defineParameter (d : PipelineDraft) (definition : ParameterDraft) :
    Attempt ParameterError PipelineDraft :=
  if isReserved definition.name then .refused d (.reservedName definition.name)
  else
    match d.parameter? definition.name with
    | none => .done { d with parameters := d.parameters ++ [definition] }
    | some existing => (existing.merge definition).map d.setParameter

def setPersona (d : PipelineDraft) (new : Persona) : PipelineDraft :=
  { d with personas := replaceFirst (fun p => p.name == new.name) new d.personas }

/-- Adds a persona, or a description to the one already there. A second description is put below
the first. -/
def registerPersona {ε : Type} (d : PipelineDraft) (name : String) (description : Option String) :
    Attempt ε PipelineDraft :=
  match d.personas.find? fun p => p.name == name with
  | none => .done { d with personas := d.personas ++ [⟨name, description⟩] }
  | some existing =>
    match description, existing.description with
    | none, _ => .done d
    | some new, none => .done (d.setPersona ⟨name, some new⟩)
    | some new, some current =>
      if current = new then .done d
      else .noted (d.setPersona ⟨name, some (current ++ "\n\n" ++ new)⟩) (.personaMerged name)

def hasTask (d : PipelineDraft) (name : String) : Bool := d.tasks.any fun t => t.name == name

def isTaskResult (d : PipelineDraft) (name : String) : Bool :=
  d.tasks.any fun t => t.result == some name

def build (d : PipelineDraft) : Pipeline :=
  { title := d.title, url := d.url, bookVersion := d.bookVersion, description := d.description
    formfactor := d.formfactor, parameters := d.parameters.map ParameterDraft.build
    requirements := d.requirements, tasks := d.tasks, knowledgeSources := d.knowledgeSources
    personas := d.personas, sources := d.sources }

end PipelineDraft

end BookCompiler
