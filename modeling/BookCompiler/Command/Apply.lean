import BookCompiler.Command.Error
import BookCompiler.Draft.Pipeline
import BookCompiler.Draft.Task
import BookCompiler.Pipeline.Basic
import BookCompiler.Text.Blank
import BookCompiler.Text.Quoted

namespace BookCompiler

def settle {α : Type} [DecidableEq α] (what : String) (text : α → String) (old : Option α)
    (new : α) : Except ApplyError (Option α) :=
  match old with
  | none => .ok (some new)
  | some first =>
    if first = new then .ok (some new) else .error (.redefinition what (text first) (text new))

def Attempt.ofResult {ε α β : Type} (draft : α) (change : β → α) : Except ε β → Attempt ε α
  | .ok b => .done (change b)
  | .error e => .refused draft e

namespace Requirements

def like? (r : Requirements) : Requirement → Option Requirement
  | .variant _ => r.variant.map .variant
  | .name _ => r.name.map .name
  | .temperature _ => r.temperature.map .temperature
  | .maxTokens _ => r.maxTokens.map .maxTokens
  | .seed _ => r.seed.map .seed

def set (r : Requirements) : Requirement → Requirements
  | .variant v => { r with variant := some v }
  | .name n => { r with name := some n }
  | .temperature t => { r with temperature := some t }
  | .maxTokens m => { r with maxTokens := some m }
  | .seed s => { r with seed := some s }

end Requirements

def ModelVariant.title : ModelVariant → String
  | chat => "Chat"
  | completion => "Completion"
  | embedding => "Embedding"

namespace Requirement

/-- Temperatures are compared as numbers, so the two zeros are the same. -/
def sameValue : Requirement → Requirement → Bool
  | temperature a, temperature b => a.sameNumber b
  | a, b => a = b

def valueText : Requirement → String
  | variant v => v.title
  | name n => Text.quoted n
  | temperature t => Decimal.exact.render t
  | maxTokens m => toString m.toNat
  | seed s => toString s.toNat

end Requirement

/-- Adds a requirement where there may be none yet. There are requirements from here on, also if
this one is refused. -/
def addRequirement (scope : String) (old : Option Requirements) (new : Requirement) :
    Attempt ApplyError (Option Requirements) :=
  let r := old.getD {}
  match r.like? new with
  | none => .done (some (r.set new))
  | some first =>
    if first.sameValue new then .noted (some r) (.requirementRepeated new.key scope)
    else
      .refused (some r)
        (.redefinition ("MODEL " ++ new.key ++ " in " ++ scope) first.valueText new.valueText)

def Declaration.role (d : Declaration) : Except ParameterError (Option Role) :=
  match d.isInput, d.isOutput with
  | true, true => .error (.conflictingRole d.name)
  | true, false => .ok (some .input)
  | false, true => .ok (some .output)
  | false, false => .ok none

namespace PipelineDraft

def declare (d : PipelineDraft) (declaration : Declaration) : Attempt ApplyError PipelineDraft :=
  match declaration.role with
  | .error e => .refused d (.parameter e)
  | .ok role =>
    (d.defineParameter
      { name := declaration.name, description := declaration.description, role }).mapRefusal
        .parameter

def addKnowledge (d : PipelineDraft) (content : String) : PipelineDraft :=
  if d.knowledgeSources.any fun k => k.content == content then d
  else { d with knowledgeSources := d.knowledgeSources ++ [.ofText content] }

end PipelineDraft

def Command.applyToHead (command : Command) (d : PipelineDraft) :
    Attempt ApplyError PipelineDraft :=
  match command with
  | .bookVersion version =>
    .ofResult d (fun v => { d with bookVersion := v })
      (settle "Book version" id d.bookVersion version)
  | .url address =>
    .ofResult d (fun u => { d with url := u }) (settle "Pipeline URL" id d.url address)
  | .formfactor name =>
    .ofResult d (fun f => { d with formfactor := f }) (settle "Formfactor" id d.formfactor name)
  | .parameter declaration => d.declare declaration
  | .persona name description => d.registerPersona name description
  | .knowledge content => .done (d.addKnowledge content)
  | .model requirement =>
    (addRequirement "the pipeline head" d.requirements requirement).map fun r =>
      { d with requirements := r }
  | .action => .noted d (.commandIgnored CommandKind.action.name d.title)
  | .instrument => .noted d (.commandIgnored CommandKind.instrument.name d.title)
  | other => .refused d (.notApplicable other.kind .head)

/-- A section under construction with the pipeline that it belongs to. -/
structure Workpiece where
  task : TaskDraft
  pipeline : PipelineDraft
  deriving Repr, DecidableEq

namespace Bounds

def add (b : Bounds) (what : String → String) (sign : ExpectSign) (amount : UInt32) :
    Except ApplyError Bounds := do
  let text (n : UInt32) : String := toString n.toNat
  let min ←
    if sign = .maximum then pure b.min else settle (what "Minimum") text b.min amount
  let max ←
    if sign = .minimum then pure b.max else settle (what "Maximum") text b.max amount
  pure { min, max }

end Bounds

namespace TaskDraft

def isBlank (d : TaskDraft) : Bool := (Text.trim d.content.toList).isEmpty

def expect (d : TaskDraft) (sign : ExpectSign) (unit : ExpectUnit) (amount : UInt32) :
    Except ApplyError Expectations := do
  let what (bound : String) : String :=
    bound ++ " " ++ unit.plural ++ " of the task \"" ++ d.title ++ "\""
  let bounds ← ((d.expectations.get unit).getD {}).add what sign amount
  match bounds.crossed with
  | some (min, max) => throw (.invalid (.crossedBounds unit min max d.title))
  | none => pure (d.expectations.set unit bounds)

def addForeach (d : TaskDraft) (loop : Foreach) : Except ApplyError (Option Foreach) :=
  match d.foreach with
  | none => .ok (some loop)
  | some first =>
    if first = loop then .ok (some loop)
    else .error (.invalid (.secondForeach d.title first.parameter))

end TaskDraft

namespace Workpiece

def withTask (w : Workpiece) (task : TaskDraft) : Workpiece := { w with task }

def withPipeline (w : Workpiece) (pipeline : PipelineDraft) : Workpiece := { w with pipeline }

def addSample (w : Workpiece) : Attempt ApplyError Workpiece :=
  match w.task.result with
  | none => .refused w (.invalid (.sampleWithoutTarget w.task.title))
  | some name =>
    match w.pipeline.parameter? name with
    | none => .refused w (.invalid (.sampleOfUndefined w.task.title name))
    | some p =>
      .done (w.withPipeline
        (w.pipeline.setParameter { p with examples := p.examples ++ [w.task.content] }))

def enact (w : Workpiece) (type : SectionType) : Attempt ApplyError Workpiece :=
  let ifContent (a : Attempt ApplyError Workpiece) : Attempt ApplyError Workpiece :=
    if w.task.isBlank then .refused w (.invalid (.noContent type w.task.title)) else a
  match type with
  | .dialog => .done w
  | .prompt => ifContent (.done w)
  | .simple => ifContent (.done w)
  | .script =>
    ifContent
      (if w.task.result.isNone then .refused w (.invalid (.scriptWithoutResult w.task.title))
       else .done w)
  | .sample => ifContent w.addSample
  | .knowledge => ifContent (.done (w.withPipeline (w.pipeline.addKnowledge w.task.content)))
  | .instrument => .noted w (.sectionIgnored type.keyword w.task.title)
  | .action => .noted w (.sectionIgnored type.keyword w.task.title)

/-- Gives a section its type. It has the type also when it does not meet what the type asks. -/
def setType (w : Workpiece) (type : SectionType) : Attempt ApplyError Workpiece :=
  match w.task.sectionType with
  | some first => .refused w (.sectionTypeRedefinition first type)
  | none => (w.withTask { w.task with sectionType := some type }).enact type

/-- Makes the entry of a unit and narrows it. The entry is there also if the amount is refused. -/
def expect (w : Workpiece) (sign : ExpectSign) (unit : ExpectUnit) (amount : UInt32) :
    Attempt ApplyError Workpiece :=
  let t := { w.task with expectations := w.task.expectations.enter unit }
  .ofResult (w.withTask t) (fun e => w.withTask { t with expectations := e })
    (t.expect sign unit amount)

def setPersona (w : Workpiece) (name : String) (description : Option String) :
    Attempt ApplyError Workpiece :=
  match settle ("Persona of the task \"" ++ w.task.title ++ "\"") id w.task.persona name with
  | .error e => .refused w e
  | .ok persona =>
    (w.pipeline.registerPersona name description).map fun d =>
      { task := { w.task with persona }, pipeline := d }

end Workpiece

def Command.applyToTask (command : Command) (w : Workpiece) : Attempt ApplyError Workpiece :=
  let t := w.task
  match command with
  | .parameter declaration => (w.pipeline.declare declaration).map w.withPipeline
  | .persona name description => w.setPersona name description
  | .sectionType type => w.setType type
  | .model requirement =>
    (addRequirement ("the task \"" ++ t.title ++ "\"") t.requirements requirement).map fun r =>
      w.withTask { t with requirements := r }
  | .expectAmount sign unit amount => w.expect sign unit amount
  | .expectFormat format =>
    .ofResult w (fun f => w.withTask { t with format := f })
      (settle ("Format of the task \"" ++ t.title ++ "\"") ResultFormat.name t.format format)
  | .joker name =>
    .done (if t.jokers.contains name then w else w.withTask { t with jokers := t.jokers ++ [name] })
  | .postprocess function =>
    .done (w.withTask { t with postprocessing := t.postprocessing ++ [function] })
  | .foreach loop =>
    .ofResult w (fun f => w.withTask { t with foreach := f }) (t.addForeach loop)
  | other => .refused w (.notApplicable other.kind .task)

namespace CommandKind

/-- Why a kind can not apply a command in a place. Each kind applies its own commands only. -/
def refusal? (kind : CommandKind) (place : Place) (command : Command) : Option ApplyError :=
  if !kind.usableIn place then some (.notApplicable command.kind place)
  else if command.kind ≠ kind then some (.invalid (.foreign command.kind kind))
  else none

def applyToHead (kind : CommandKind) (command : Command) (d : PipelineDraft) :
    Attempt ApplyError PipelineDraft :=
  match kind.refusal? .head command with
  | some e => .refused d e
  | none => command.applyToHead d

def applyToTask (kind : CommandKind) (command : Command) (w : Workpiece) :
    Attempt ApplyError Workpiece :=
  match kind.refusal? .task command with
  | some e => .refused w e
  | none => command.applyToTask w

end CommandKind

end BookCompiler
