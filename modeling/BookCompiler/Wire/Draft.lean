import BookCompiler.Draft.Pipeline
import BookCompiler.Draft.Task
import BookCompiler.Wire.Pipeline

namespace BookCompiler

/-!
Drafts are shown with all their members, absent values as null.
-/

def ParameterDraft.toJson (p : ParameterDraft) : Json :=
  .obj [("name", .str p.name), ("description", Json.ofOption .str p.description),
    ("role", Json.ofOption Role.toJson p.role), ("exampleValues", Json.ofStrings p.examples)]

def PipelineDraft.toJson (d : PipelineDraft) : Json :=
  .obj [("title", .str d.title), ("pipelineUrl", Json.ofOption .str d.url),
    ("bookVersion", Json.ofOption .str d.bookVersion),
    ("description", Json.ofOption .str d.description),
    ("formfactorName", Json.ofOption .str d.formfactor),
    ("parameters", .arr (d.parameters.map ParameterDraft.toJson)),
    ("defaultModelRequirements", Json.ofOption Requirements.toJson d.requirements),
    ("tasks", .arr (d.tasks.map Task.toJson)),
    ("knowledgeSources", .arr (d.knowledgeSources.map KnowledgeSource.toJson)),
    ("personas", .arr (d.personas.map Persona.toJson)),
    ("sources", .arr (d.sources.map Source.toJson))]

def TaskDraft.toJson (d : TaskDraft) : Json :=
  .obj [("name", .str d.name), ("title", .str d.title),
    ("description", Json.ofOption .str d.description), ("content", .str d.content),
    ("contentLanguage", Json.ofOption .str d.language),
    ("resultingParameterName", Json.ofOption .str d.result),
    ("sectionType", Json.ofOption SectionType.toJson d.sectionType),
    ("personaName", Json.ofOption .str d.persona),
    ("modelRequirements", Json.ofOption Requirements.toJson d.requirements),
    ("expectations", d.expectations.toJson),
    ("format", Json.ofOption ResultFormat.toJson d.format),
    ("jokerParameterNames", Json.ofStrings d.jokers),
    ("postprocessingFunctionNames", Json.ofStrings d.postprocessing),
    ("foreach", Json.ofOption Foreach.toJson d.foreach)]

def PipelineDraft.snapshot (d : PipelineDraft) : String := d.toJson.pretty

def TaskDraft.snapshot (d : TaskDraft) : String := d.toJson.pretty

end BookCompiler
