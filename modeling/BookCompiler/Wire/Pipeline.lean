import BookCompiler.Pipeline.Basic
import BookCompiler.Wire.Task

namespace BookCompiler

namespace Role

def all : List Role := [input, output, intermediate]

def name : Role → String
  | input => "INPUT"
  | output => "OUTPUT"
  | intermediate => "INTERMEDIATE"

def toJson (r : Role) : Json := .str r.name

def ofJson? (x : Json) : Option Role := x.name?.bind (ofName? all name)

/-- The role that the flags of a parameter stand for; both at once stand for none. -/
def ofFlags? : (isInput isOutput : Bool) → Option Role
  | true, true => none
  | true, false => some input
  | false, true => some output
  | false, false => some intermediate

end Role

namespace Parameter

def toJson (p : Parameter) : Json :=
  .obj ([("name", .str p.name)] ++ Json.optional "description" .str p.description ++
    [("isInput", .bool p.isInput), ("isOutput", .bool p.isOutput)] ++
    Json.nonempty "exampleValues" .str p.examples)

def ofJson? (x : Json) : Option Parameter := do
  let m ← x.record? ["name", "description", "isInput", "isOutput", "exampleValues"]
  let name ← Json.required m "name" Json.string?
  let description ← Json.maybe m "description" Json.string?
  let isInput ← Json.required m "isInput" Json.bool?
  let isOutput ← Json.required m "isOutput" Json.bool?
  let examples ← Json.orElse m "exampleValues" [] (Json.list? Json.string?)
  let role ← Role.ofFlags? isInput isOutput
  some { name, description, role, examples }

end Parameter

namespace Persona

def toJson (p : Persona) : Json :=
  .obj ([("name", .str p.name)] ++ Json.optional "description" .str p.description)

def ofJson? (x : Json) : Option Persona := do
  let m ← x.record? ["name", "description"]
  let name ← Json.required m "name" Json.string?
  let description ← Json.maybe m "description" Json.string?
  some { name, description }

end Persona

namespace KnowledgeSource

def toJson (k : KnowledgeSource) : Json :=
  .obj [("name", .str k.name), ("knowledgeSourceContent", .str k.content)]

def ofJson? (x : Json) : Option KnowledgeSource := do
  let m ← x.record? ["name", "knowledgeSourceContent"]
  let name ← Json.required m "name" Json.string?
  let content ← Json.required m "knowledgeSourceContent" Json.string?
  some { name, content }

end KnowledgeSource

namespace KnowledgePiece

def toJson (k : KnowledgePiece) : Json :=
  .obj [("name", .str k.name), ("title", .str k.title), ("content", .str k.content),
    ("keywords", Json.ofStrings k.keywords), ("sources", Json.ofStrings k.sources)]

def ofJson? (x : Json) : Option KnowledgePiece := do
  let m ← x.record? ["name", "title", "content", "keywords", "sources"]
  let name ← Json.required m "name" Json.string?
  let title ← Json.required m "title" Json.string?
  let content ← Json.required m "content" Json.string?
  let keywords ← Json.orElse m "keywords" [] (Json.list? Json.string?)
  let sources ← Json.orElse m "sources" [] (Json.list? Json.string?)
  some { name, title, content, keywords, sources }

end KnowledgePiece

namespace Preparation

def toJson (p : Preparation) : Json :=
  .obj [("id", .str p.id), ("bookVersion", .str p.bookVersion)]

def ofJson? (x : Json) : Option Preparation := do
  let m ← x.record? ["id", "bookVersion"]
  let id ← Json.required m "id" Json.string?
  let bookVersion ← Json.required m "bookVersion" Json.string?
  some { id, bookVersion }

end Preparation

namespace Source

def toJson (s : Source) : Json :=
  .obj ([("type", .str s.type)] ++ Json.optional "path" .str s.path ++
    [("content", .str s.content)])

def ofJson? (x : Json) : Option Source := do
  let m ← x.record? ["type", "path", "content"]
  let type ← Json.required m "type" Json.string?
  let path ← Json.maybe m "path" Json.string?
  let content ← Json.required m "content" Json.string?
  some { type, path, content }

end Source

namespace Pipeline

def toJson (p : Pipeline) : Json :=
  .obj ([("title", .str p.title)] ++
    Json.optional "pipelineUrl" .str p.url ++
    Json.optional "bookVersion" .str p.bookVersion ++
    Json.optional "description" .str p.description ++
    Json.optional "formfactorName" .str p.formfactor ++
    [("parameters", .arr (p.parameters.map Parameter.toJson))] ++
    Json.optional "defaultModelRequirements" Requirements.toJson p.requirements ++
    [("tasks", .arr (p.tasks.map Task.toJson)),
     ("knowledgeSources", .arr (p.knowledgeSources.map KnowledgeSource.toJson)),
     ("knowledgePieces", .arr (p.knowledgePieces.map KnowledgePiece.toJson)),
     ("personas", .arr (p.personas.map Persona.toJson)),
     ("preparations", .arr (p.preparations.map Preparation.toJson)),
     ("sources", .arr (p.sources.map Source.toJson))])

def ofJson? (x : Json) : Option Pipeline := do
  let m ← x.record?
    ["title", "pipelineUrl", "bookVersion", "description", "formfactorName", "parameters",
     "defaultModelRequirements", "tasks", "knowledgeSources", "knowledgePieces", "personas",
     "preparations", "sources"]
  let title ← Json.required m "title" Json.string?
  let url ← Json.maybe m "pipelineUrl" Json.string?
  let bookVersion ← Json.maybe m "bookVersion" Json.string?
  let description ← Json.maybe m "description" Json.string?
  let formfactor ← Json.maybe m "formfactorName" Json.string?
  let parameters ← Json.orElse m "parameters" [] (Json.list? Parameter.ofJson?)
  let requirements ← Json.maybe m "defaultModelRequirements" Requirements.ofJson?
  let tasks ← Json.orElse m "tasks" [] (Json.list? Task.ofJson?)
  let knowledgeSources ← Json.orElse m "knowledgeSources" [] (Json.list? KnowledgeSource.ofJson?)
  let knowledgePieces ← Json.orElse m "knowledgePieces" [] (Json.list? KnowledgePiece.ofJson?)
  let personas ← Json.orElse m "personas" [] (Json.list? Persona.ofJson?)
  let preparations ← Json.orElse m "preparations" [] (Json.list? Preparation.ofJson?)
  let sources ← Json.orElse m "sources" [] (Json.list? Source.ofJson?)
  some
    { title, url, bookVersion, description, formfactor, parameters, requirements, tasks
      knowledgeSources, knowledgePieces, personas, preparations, sources }

end Pipeline

end BookCompiler
