import BookCompiler.Command.Take
import BookCompiler.Command.Write
import BookCompiler.Command.Error
import BookCompiler.Name.Reference

namespace BookCompiler

def fenced (language : Option String) (content : String) : String :=
  "```" ++ language.getD "" ++ "\n" ++ content ++ "\n```"

def returnLine (name : String) : String := "-> " ++ braced name

def listBlock : List String → List String
  | [] => []
  | lines => [bulletList lines]

def CommandKind.allIn (place : Place) : List CommandKind := all.filter (·.usableIn place)

namespace Task

def commandLines (t : Task) : List String :=
  (CommandKind.allIn .task).flatMap fun kind => (kind.takeFromTask t).filterMap kind.write?

def blocks (t : Task) : List String :=
  let language := if t.type = .script then t.language else none
  ["## " ++ t.title] ++ listBlock t.commandLines ++ t.description.toList ++
    [fenced language t.content] ++ (t.result.map returnLine).toList

end Task

def hasLineFeed (content : String) : Bool := content.toList.contains '\n'

def Command.isLongKnowledge : Command → Bool
  | .knowledge content => hasLineFeed content
  | _ => false

def knowledgeBlocks (content : String) : List String :=
  ["## Knowledge", "- KNOWLEDGE SECTION", fenced none content]

def Parameter.sampleBlocks (p : Parameter) : List String :=
  p.examples.flatMap fun value =>
    ["## Example", "- EXAMPLE SECTION", fenced none value, returnLine p.name]

namespace Pipeline

def headLines (p : Pipeline) : List String :=
  (CommandKind.allIn .head).flatMap fun kind =>
    ((kind.takeFromPipeline p).filter (!·.isLongKnowledge)).filterMap kind.write?

def longKnowledge (p : Pipeline) : List String :=
  (p.knowledgeSources.map KnowledgeSource.content).filter hasLineFeed

def blocks (p : Pipeline) : List String :=
  ["# " ++ p.title] ++ p.description.toList ++ listBlock p.headLines ++
    p.tasks.flatMap Task.blocks ++ p.longKnowledge.flatMap knowledgeBlocks ++
    p.parameters.flatMap Parameter.sampleBlocks

/-- Writes a pipeline as a book. -/
def toBook (p : Pipeline) : String := String.intercalate "\n\n" p.blocks ++ "\n"

end Pipeline

end BookCompiler
