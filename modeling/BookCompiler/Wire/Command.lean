import BookCompiler.Command.Basic
import BookCompiler.Wire.Task

namespace BookCompiler

namespace Declaration

def members (d : Declaration) : Json.Members :=
  [("parameterName", .str d.name), ("parameterDescription", Json.ofOption .str d.description),
   ("isInput", .bool d.isInput), ("isOutput", .bool d.isOutput)]

def ofMembers? (m : Json.Members) : Option Declaration := do
  let name ← Json.required m "parameterName" Json.string?
  let description ← Json.maybe m "parameterDescription" Json.string?
  let isInput ← Json.required m "isInput" Json.bool?
  let isOutput ← Json.required m "isOutput" Json.bool?
  some { name, description, isInput, isOutput }

end Declaration

def CommandKind.fields : CommandKind → List String
  | bookVersion => ["bookVersion"]
  | url => ["pipelineUrl"]
  | formfactor => ["formfactorName"]
  | parameter => ["parameterName", "parameterDescription", "isInput", "isOutput"]
  | persona => ["personaName", "personaDescription"]
  | knowledge => ["knowledgeSourceContent"]
  | sectionType => ["sectionType"]
  | model => ["requirement"]
  | expectAmount => ["sign", "unit", "amount"]
  | expectFormat => ["format"]
  | joker => ["parameterName"]
  | postprocess => ["functionName"]
  | foreach =>
    ["formatName", "subformatName", "parameterName", "inputSubparameterNames",
     "outputSubparameterName"]
  | action => []
  | instrument => []

def CommandKind.ofJson? (x : Json) : Option CommandKind := x.string?.bind (ofName? all typeName)

namespace Command

def members : Command → Json.Members
  | bookVersion version => [("bookVersion", .str version)]
  | url address => [("pipelineUrl", .str address)]
  | parameter declaration => declaration.members
  | persona name description =>
    [("personaName", .str name), ("personaDescription", Json.ofOption .str description)]
  | knowledge content => [("knowledgeSourceContent", .str content)]
  | formfactor name => [("formfactorName", .str name)]
  | sectionType type => [("sectionType", type.toJson)]
  | model requirement => [("requirement", requirement.toJson)]
  | expectAmount sign unit amount =>
    [("sign", sign.toJson), ("unit", unit.toJson), ("amount", Json.ofUInt32 amount)]
  | expectFormat format => [("format", format.toJson)]
  | joker name => [("parameterName", .str name)]
  | postprocess function => [("functionName", .str function)]
  | foreach loop => loop.members
  | action => []
  | instrument => []

def toJson (c : Command) : Json := .obj (("type", .str c.kind.typeName) :: c.members)

def ofMembers? (kind : CommandKind) (m : Json.Members) : Option Command :=
  match kind with
  | .bookVersion => (Json.required m "bookVersion" Json.string?).map bookVersion
  | .url => (Json.required m "pipelineUrl" Json.string?).map url
  | .parameter => (Declaration.ofMembers? m).map parameter
  | .persona => do
    let name ← Json.required m "personaName" Json.string?
    let description ← Json.maybe m "personaDescription" Json.string?
    some (persona name description)
  | .knowledge => (Json.required m "knowledgeSourceContent" Json.string?).map knowledge
  | .formfactor => (Json.required m "formfactorName" Json.string?).map formfactor
  | .sectionType => (Json.required m "sectionType" SectionType.ofJson?).map sectionType
  | .model => (Json.required m "requirement" Requirement.ofJson?).map model
  | .expectAmount => do
    let sign ← Json.required m "sign" ExpectSign.ofJson?
    let unit ← Json.required m "unit" ExpectUnit.ofJson?
    let amount ← Json.required m "amount" Json.uint32?
    some (expectAmount sign unit amount)
  | .expectFormat => (Json.required m "format" ResultFormat.ofCommand?).map expectFormat
  | .joker => (Json.required m "parameterName" Json.string?).map joker
  | .postprocess => (Json.required m "functionName" Json.string?).map postprocess
  | .foreach => (Foreach.ofJson? (.obj m)).map foreach
  | .action => some action
  | .instrument => some instrument

/-- The kind and the members of a command. A command may also be an array of its kind and of the
values of all its members in order. -/
def parts? : Json → Option (CommandKind × Json.Members)
  | .obj members => do
    let kind ← Json.required members "type" CommandKind.ofJson?
    some (kind, members)
  | .arr (type :: values) => do
    let kind ← CommandKind.ofJson? type
    if values.length = kind.fields.length then some (kind, kind.fields.zip values) else none
  | _ => none

def ofJson? (x : Json) : Option Command := (parts? x).bind fun (kind, m) => ofMembers? kind m

end Command

end BookCompiler
