import BookCompiler.Pipeline.Basic

namespace BookCompiler

structure FormfactorParameter where
  name : String
  description : String
  deriving Repr, DecidableEq

/-- A known interface of a pipeline: the parameters that an application gives and gets. -/
structure Formfactor where
  name : String
  aliases : List String := []
  description : String
  inputs : List FormfactorParameter := []
  outputs : List FormfactorParameter := []
  deriving Repr, DecidableEq

namespace Formfactor

def generic : Formfactor where
  name := "GENERIC"
  description := "A generic pipeline without any specific interface"

def chatbot : Formfactor where
  name := "CHATBOT"
  aliases := ["CHAT"]
  description := "Chatbot answering the user and keeping a summary of the conversation"
  inputs :=
    [⟨"previousTitle", "Previous title of the conversation"⟩,
     ⟨"previousConversationSummary", "Previous conversation summary"⟩,
     ⟨"userMessage", "User message"⟩]
  outputs :=
    [⟨"title", "Title of the conversation"⟩,
     ⟨"chatbotResponse", "Chatbot response"⟩,
     ⟨"conversationSummary", "Summary of the conversation"⟩]

def completion : Formfactor where
  name := "COMPLETION"
  description := "Continues the given text"
  inputs := [⟨"inputText", "Text to be completed"⟩]
  outputs := [⟨"outputText", "Completed text"⟩]

def translator : Formfactor where
  name := "TRANSLATOR"
  description := "Translates the input message"
  inputs := [⟨"inputMessage", "Message to be translated"⟩]
  outputs := [⟨"outputMessage", "Translated message"⟩]

def sheets : Formfactor where
  name := "SHEETS"
  aliases := ["SHEET", "TABLE"]
  description := "Transforms one table into another"
  inputs := [⟨"inputSheet", "Input table as CSV"⟩]
  outputs := [⟨"outputSheet", "Output table as CSV"⟩]

def imageGenerator : Formfactor where
  name := "IMAGE_GENERATOR"
  description := "Generates an image from the prompt"
  inputs := [⟨"prompt", "Description of the image"⟩]
  outputs := [⟨"image", "Generated image"⟩]

def generator : Formfactor where
  name := "GENERATOR"
  description := "Generates content from free-form parameters"

def matcher : Formfactor where
  name := "MATCHER"
  description := "Evaluates how well the inputs match"

def all : List Formfactor :=
  [generic, chatbot, completion, translator, sheets, imageGenerator, generator, matcher]

def find? (name : String) : Option Formfactor :=
  all.find? fun f => f.name == name || f.aliases.contains name

def hasEmptyInterface (f : Formfactor) : Bool := f.inputs.isEmpty && f.outputs.isEmpty

def inputNames (f : Formfactor) : List String := f.inputs.map FormfactorParameter.name

def outputNames (f : Formfactor) : List String := f.outputs.map FormfactorParameter.name

end Formfactor

def Pipeline.formfactorName (p : Pipeline) : String := p.formfactor.getD Formfactor.generic.name

end BookCompiler
