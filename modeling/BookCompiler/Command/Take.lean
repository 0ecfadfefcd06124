import BookCompiler.Command.Basic
import BookCompiler.Pipeline.Formfactor

namespace BookCompiler

def Parameter.declaration (p : Parameter) : Declaration :=
  { name := p.name, description := p.description, isInput := p.isInput, isOutput := p.isOutput }

def Parameter.isDeclared (p : Parameter) : Bool :=
  p.role ≠ .intermediate || p.description.isSome

def Bounds.commands (b : Bounds) (unit : ExpectUnit) : List Command :=
  if b.min.isSome && b.min = b.max then
    (b.min.map (.expectAmount .exactly unit)).toList
  else
    (b.min.map (.expectAmount .minimum unit)).toList ++
      (b.max.map (.expectAmount .maximum unit)).toList

namespace CommandKind

/-- The commands of a kind that give the head of a pipeline. -/
def takeFromPipeline (kind : CommandKind) (p : Pipeline) : List Command :=
  match kind with
  | bookVersion => (p.bookVersion.map .bookVersion).toList
  | url => (p.url.map .url).toList
  | formfactor => ((p.formfactor.filter (· ≠ Formfactor.generic.name)).map .formfactor).toList
  | parameter => (p.parameters.filter Parameter.isDeclared).map fun q => .parameter q.declaration
  | persona => p.personas.map fun q => .persona q.name q.description
  | knowledge => p.knowledgeSources.map fun k => .knowledge k.content
  | model => ((p.requirements.map Requirements.toList).getD []).map .model
  | _ => []

def takeFromTask (kind : CommandKind) (t : Task) : List Command :=
  match kind with
  | persona => (t.persona.map fun name => .persona name none).toList
  | sectionType => [.sectionType (.ofTaskType t.type)]
  | model => ((t.requirements.map Requirements.toList).getD []).map .model
  | expectAmount => t.expectations.toList.flatMap fun (unit, b) => b.commands unit
  | expectFormat => (t.format.map .expectFormat).toList
  | joker => t.jokers.map .joker
  | postprocess => t.postprocessing.map .postprocess
  | foreach => (t.foreach.map .foreach).toList
  | _ => []

end CommandKind

end BookCompiler
