import BookCompiler.Pipeline.Task
import BookCompiler.Wire.Requirements

namespace BookCompiler

namespace TaskType

def all : List TaskType := [prompt, simple, script, dialog]

def toJson (t : TaskType) : Json := .str t.name

def ofJson? (x : Json) : Option TaskType := x.name?.bind (ofName? all name)

end TaskType

namespace SectionType

def toJson (t : SectionType) : Json := .str t.name

def ofJson? (x : Json) : Option SectionType := x.commandName?.bind (ofName? all name)

end SectionType

namespace ExpectUnit

def toJson (u : ExpectUnit) : Json := .str u.name

def ofJson? (x : Json) : Option ExpectUnit := x.commandName?.bind (ofName? all name)

end ExpectUnit

namespace ExpectSign

def all : List ExpectSign := [exactly, minimum, maximum]

def toJson (s : ExpectSign) : Json := .str s.name

def ofJson? (x : Json) : Option ExpectSign := x.commandName?.bind (ofName? all name)

end ExpectSign

namespace ResultFormat

def all : List ResultFormat := [json]

def toJson (f : ResultFormat) : Json := .str f.name

def ofJson? (x : Json) : Option ResultFormat := x.name?.bind (ofName? all name)

def ofCommand? (x : Json) : Option ResultFormat := x.commandName?.bind (ofName? all name)

end ResultFormat

namespace Bounds

def toJson (b : Bounds) : Json :=
  .obj (Json.optional "min" Json.ofUInt32 b.min ++ Json.optional "max" Json.ofUInt32 b.max)

def ofJson? (x : Json) : Option Bounds := do
  let m ← x.record? ["min", "max"]
  let min ← Json.maybe m "min" Json.uint32?
  let max ← Json.maybe m "max" Json.uint32?
  some { min, max }

end Bounds

namespace Expectations

def members (e : Expectations) : Json.Members :=
  e.toList.map fun (unit, b) => (unit.name, b.toJson)

def toJson (e : Expectations) : Json := .obj e.members

/-- Adds the entries one after another; a member with the name of no unit is refused. -/
def ofMembers? (e : Expectations) : Json.Members → Option Expectations
  | [] => some e
  | (key, x) :: rest => do
    let unit ← ofName? ExpectUnit.all ExpectUnit.name key
    let b ← Bounds.ofJson? x
    (e.set unit b).ofMembers? rest

def ofJson? (x : Json) : Option Expectations := x.members?.bind (ofMembers? {})

end Expectations

namespace Foreach

def members (f : Foreach) : Json.Members :=
  [("formatName", .str f.format), ("subformatName", .str f.subformat),
   ("parameterName", .str f.parameter), ("inputSubparameterNames", Json.ofStrings f.inputs),
   ("outputSubparameterName", .str f.output)]

def toJson (f : Foreach) : Json := .obj f.members

def ofJson? (x : Json) : Option Foreach := do
  let m ← x.record?
    ["formatName", "subformatName", "parameterName", "inputSubparameterNames",
     "outputSubparameterName"]
  let format ← Json.required m "formatName" Json.string?
  let subformat ← Json.required m "subformatName" Json.string?
  let parameter ← Json.required m "parameterName" Json.string?
  let inputs ← Json.required m "inputSubparameterNames" (Json.list? Json.string?)
  let output ← Json.required m "outputSubparameterName" Json.string?
  some { format, subformat, parameter, inputs, output }

end Foreach

namespace Task

def toJson (t : Task) : Json :=
  .obj ([("name", .str t.name), ("title", .str t.title)] ++
    Json.optional "description" .str t.description ++
    [("taskType", t.type.toJson), ("content", .str t.content)] ++
    Json.optional "contentLanguage" .str t.language ++
    Json.optional "resultingParameterName" .str t.result ++
    [("dependentParameterNames", Json.ofStrings t.dependencies)] ++
    Json.nonempty "jokerParameterNames" .str t.jokers ++
    Json.nonempty "postprocessingFunctionNames" .str t.postprocessing ++
    (if t.expectations.isEmpty then [] else [("expectations", t.expectations.toJson)]) ++
    Json.optional "format" ResultFormat.toJson t.format ++
    Json.optional "foreach" Foreach.toJson t.foreach ++
    Json.optional "personaName" .str t.persona ++
    Json.optional "modelRequirements" Requirements.toJson t.requirements ++
    Json.optional "preparedContent" .str t.prepared)

def ofJson? (x : Json) : Option Task := do
  let m ← x.record?
    ["name", "title", "description", "taskType", "content", "contentLanguage",
     "resultingParameterName", "dependentParameterNames", "jokerParameterNames",
     "postprocessingFunctionNames", "expectations", "format", "foreach", "personaName",
     "modelRequirements", "preparedContent"]
  let name ← Json.required m "name" Json.string?
  let title ← Json.required m "title" Json.string?
  let description ← Json.maybe m "description" Json.string?
  let type ← Json.required m "taskType" TaskType.ofJson?
  let content ← Json.required m "content" Json.string?
  let language ← Json.maybe m "contentLanguage" Json.string?
  let result ← Json.maybe m "resultingParameterName" Json.string?
  let dependencies ← Json.orElse m "dependentParameterNames" [] (Json.list? Json.string?)
  let jokers ← Json.orElse m "jokerParameterNames" [] (Json.list? Json.string?)
  let postprocessing ← Json.orElse m "postprocessingFunctionNames" [] (Json.list? Json.string?)
  let expectations ← Json.orElse m "expectations" {} Expectations.ofJson?
  let format ← Json.maybe m "format" ResultFormat.ofJson?
  let foreach ← Json.maybe m "foreach" Foreach.ofJson?
  let persona ← Json.maybe m "personaName" Json.string?
  let requirements ← Json.maybe m "modelRequirements" Requirements.ofJson?
  let prepared ← Json.maybe m "preparedContent" Json.string?
  some
    { name, title, description, type, content, language, result, dependencies, jokers
      postprocessing, expectations, format, foreach, persona, requirements, prepared }

end Task

end BookCompiler
