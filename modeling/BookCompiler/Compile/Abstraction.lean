import BookCompiler.Name.Reference
import BookCompiler.Pipeline.Formfactor

namespace BookCompiler

def Formfactor.fits (f : Formfactor) (p : Pipeline) : Bool :=
  !f.hasEmptyInterface &&
    Name.sorted f.inputNames = Name.sorted (p.namesWithRole .input) &&
    Name.sorted f.outputNames = Name.sorted (p.namesWithRole .output)

def FormfactorParameter.toParameter (p : FormfactorParameter) (role : Role) : Parameter :=
  { name := p.name, description := some p.description, role }

def Formfactor.parameters (f : Formfactor) : List Parameter :=
  f.inputs.map (·.toParameter .input) ++ f.outputs.map (·.toParameter .output)

namespace Chatbot

def answer (persona : String) : Task where
  name := "create-an-answer"
  title := "Create an answer"
  type := .prompt
  content :=
    "Write a response to the user message:\n\n**Question from user**\n\n> \x7buserMessage\x7d" ++
      "\n\n**Previous conversation**\n\n> \x7bpreviousConversationSummary\x7d"
  dependencies := ["previousConversationSummary", "userMessage"]
  result := some "chatbotResponse"
  persona := some persona

def summary (persona : String) : Task where
  name := "summarize-the-conversation"
  title := "Summarize the conversation"
  type := .prompt
  content :=
    "Summarize the conversation in a few words:\n\n## User\n\n> \x7buserMessage\x7d" ++
      "\n\n## You\n\n> \x7bchatbotResponse\x7d"
  dependencies := ["chatbotResponse", "userMessage"]
  result := some "conversationSummary"
  persona := some persona
  expectations := { words := some { min := some 1, max := some 10 } }

def title : Task where
  name := "title"
  title := "Title"
  type := .simple
  content := "\x7bconversationSummary\x7d"
  dependencies := ["conversationSummary"]
  result := some "title"

def tasks (persona : String) : List Task := [answer persona, summary persona, title]

end Chatbot

namespace Pipeline

def inferFormfactor (p : Pipeline) : Pipeline :=
  match p.formfactor with
  | some _ => p
  | none => { p with formfactor := (Formfactor.all.find? (·.fits p)).map Formfactor.name }

def isBare (p : Pipeline) : Bool :=
  p.formfactor.all (· = Formfactor.chatbot.name) && p.parameters.isEmpty && p.tasks.isEmpty

/-- Makes a chatbot of a pipeline that has a persona and nothing else. -/
def scaffoldChatbot (p : Pipeline) : Pipeline :=
  match p.personas with
  | [] => p
  | persona :: _ =>
    if p.isBare then
      { p with
        tasks := Chatbot.tasks persona.name
        parameters := Formfactor.chatbot.parameters
        formfactor := some Formfactor.chatbot.name }
    else p

def applyAbstractions (p : Pipeline) : Pipeline := p.inferFormfactor.scaffoldChatbot

end Pipeline

end BookCompiler
