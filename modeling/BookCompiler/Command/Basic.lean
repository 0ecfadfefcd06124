import BookCompiler.Pipeline.Task

namespace BookCompiler

inductive Place where
  | head
  | task
  deriving Repr, DecidableEq

namespace Place

def name : Place → String
  | head => "pipeline head"
  | task => "pipeline task"

def other : Place → Place
  | head => task
  | task => head

end Place

structure Declaration where
  name : String
  description : Option String
  isInput : Bool
  isOutput : Bool
  deriving Repr, DecidableEq

inductive Command where
  | bookVersion (version : String)
  | url (url : String)
  | parameter (declaration : Declaration)
  | persona (name : String) (description : Option String)
  | knowledge (content : String)
  | formfactor (name : String)
  | sectionType (type : SectionType)
  | model (requirement : Requirement)
  | expectAmount (sign : ExpectSign) (unit : ExpectUnit) (amount : UInt32)
  | expectFormat (format : ResultFormat)
  | joker (parameter : String)
  | postprocess (function : String)
  | foreach (loop : Foreach)
  | action
  | instrument
  deriving Repr, DecidableEq

/-- The kinds of commands, each with its own way to be written, read and applied. -/
inductive CommandKind where
  | bookVersion
  | url
  | formfactor
  | parameter
  | persona
  | knowledge
  | sectionType
  | model
  | expectAmount
  | expectFormat
  | joker
  | postprocess
  | foreach
  | action
  | instrument
  deriving Repr, DecidableEq

def Command.kind : Command → CommandKind
  | bookVersion _ => .bookVersion
  | url _ => .url
  | parameter _ => .parameter
  | persona _ _ => .persona
  | knowledge _ => .knowledge
  | formfactor _ => .formfactor
  | sectionType _ => .sectionType
  | model _ => .model
  | expectAmount _ _ _ => .expectAmount
  | expectFormat _ => .expectFormat
  | joker _ => .joker
  | postprocess _ => .postprocess
  | foreach _ => .foreach
  | action => .action
  | instrument => .instrument

namespace CommandKind

def all : List CommandKind :=
  [bookVersion, url, formfactor, parameter, persona, knowledge, sectionType, model, expectAmount,
   expectFormat, joker, postprocess, foreach, action, instrument]

def name : CommandKind → String
  | bookVersion => "BOOK_VERSION"
  | url => "URL"
  | formfactor => "FORMFACTOR"
  | parameter => "PARAMETER"
  | persona => "PERSONA"
  | knowledge => "KNOWLEDGE"
  | sectionType => "SECTION"
  | model => "MODEL"
  | expectAmount => "EXPECT"
  | expectFormat => "FORMAT"
  | joker => "JOKER"
  | postprocess => "POSTPROCESS"
  | foreach => "FOREACH"
  | action => "ACTION"
  | instrument => "INSTRUMENT"

def typeName : CommandKind → String
  | expectAmount => "EXPECT_AMOUNT"
  | expectFormat => "EXPECT_FORMAT"
  | kind => kind.name

def aliases : CommandKind → List String
  | bookVersion => ["BOOK"]
  | url => ["PIPELINE_URL"]
  | formfactor => ["FORM_FACTOR"]
  | parameter => ["PARAM", "INPUT_PARAMETER", "INPUT_PARAM", "OUTPUT_PARAMETER", "OUTPUT_PARAM"]
  | sectionType =>
    ["PROMPT", "SIMPLE", "SCRIPT", "DIALOG", "SAMPLE", "KNOWLEDGE", "INSTRUMENT", "ACTION"]
  | expectFormat => ["EXPECT_FORMAT", "EXPECT_JSON"]
  | postprocess => ["POSTPROCESSING", "PP"]
  | foreach => ["FOR", "EACH", "FOR_EACH"]
  | _ => []

def deprecatedNames : CommandKind → List String
  | bookVersion => ["PROMPTBOOK_VERSION", "PTBK_VERSION"]
  | url => ["PTBK_URL", "PROMPTBOOK_URL"]
  | sectionType => ["BLOCK", "EXECUTE", "TEMPLATE"]
  | _ => []

def allNames (kind : CommandKind) : List String :=
  kind.name :: kind.aliases ++ kind.deprecatedNames

def description : CommandKind → String
  | bookVersion => "Version of the book language the book is written in"
  | url => "Canonical https URL identifying the pipeline"
  | formfactor => "Interface of the pipeline, like a chatbot or a translator"
  | parameter =>
    "Declares a parameter with its description, " ++
      "input and output parameters form the interface of the pipeline"
  | persona =>
    "Persona of the model answering the prompt, in the head it applies to the whole pipeline"
  | knowledge => "Source of knowledge the pipeline can use, a URL, a file path or an inline text"
  | sectionType =>
    "Type of the section, " ++
      "a prompt, simple template, script, dialog, example, knowledge, instrument or action"
  | model => "Requirement on the model, in the head it is the default for every prompt"
  | expectAmount =>
    "Expected amount of characters, words, sentences, lines, paragraphs or pages of the result"
  | expectFormat => "Structured format the result must be in"
  | joker => "Parameter used as the result when it already meets the expectations"
  | postprocess => "Function the result of the task is passed through"
  | foreach => "Runs the task for each line, row or cell of a parameter"
  | action => "Action the pipeline can take, reserved for future use"
  | instrument => "Instrument the pipeline can use, reserved for future use"

def places : CommandKind → List Place
  | bookVersion | url | formfactor | knowledge | action | instrument => [.head]
  | parameter | persona | model => [.head, .task]
  | sectionType | expectAmount | expectFormat | joker | postprocess | foreach => [.task]

def usableIn (kind : CommandKind) (place : Place) : Bool := kind.places.contains place

def examples : CommandKind → List String
  | bookVersion => ["BOOK VERSION 1.0.0", "BOOK 2.0.0", "BOOK_VERSION 0.61.0"]
  | url =>
    ["URL https://promptbook.studio/library/write-cv.book",
     "PIPELINE URL https://example.com/books/translate.book"]
  | formfactor =>
    ["FORMFACTOR Chatbot", "FORMFACTOR Generic", "FORM FACTOR Translator",
     "FORMFACTOR Image Generator"]
  | parameter =>
    ["PARAMETER \x7btitle\x7d Title of the book",
     "INPUT PARAMETER \x7btopic\x7d Topic of the poem",
     "OUTPUT PARAMETER \x7bpoem\x7d",
     "INPUT PARAM \x7bname\x7d",
     "PARAM `\x7bcontext_notes\x7d` Notes for the writer"]
  | persona =>
    ["PERSONA Jane, skilled copywriter",
     "PERSONA Joe; math teacher who explains everything twice",
     "PERSONA Paul"]
  | knowledge =>
    ["KNOWLEDGE https://www.pavolhejny.com/",
     "KNOWLEDGE ./hejny-cv.pdf",
     "KNOWLEDGE Pavol Hejný has a PhD in mathematics education"]
  | sectionType =>
    ["PROMPT SECTION", "SIMPLE SECTION", "SCRIPT SECTION", "DIALOG SECTION", "EXAMPLE SECTION",
     "KNOWLEDGE SECTION", "INSTRUMENT SECTION", "ACTION SECTION", "SECTION PROMPT",
     "Prompt section", "Sample", "PROMPT TEMPLATE", "EXECUTE SCRIPT"]
  | model =>
    ["MODEL VARIANT Chat", "MODEL VARIANT Completion", "MODEL NAME gpt-4",
     "MODEL NAME `claude-3-opus-20240229`", "MODEL TEMPERATURE 0.5", "MODEL MAX TOKENS 1000",
     "MODEL SEED 42"]
  | expectAmount =>
    ["EXPECT MIN 100 Characters", "EXPECT MAX 10 Words", "EXPECT EXACTLY 3 Sentences",
     "EXPECT EXACTLY 1 Paragraph", "Expect max 1 line", "EXPECT MAX 5 CHARS",
     "EXPECT MINIMUM 1 PAGE"]
  | expectFormat => ["FORMAT JSON", "EXPECT JSON", "EXPECT FORMAT JSON", "Expect json"]
  | joker => ["JOKER \x7bdocumentTitle\x7d"]
  | postprocess => ["POSTPROCESS unwrapResult", "POSTPROCESSING `trim`", "PP removeQuotes"]
  | foreach =>
    ["FOREACH Text Line `\x7bcustomers\x7d` -> `\x7bcustomer\x7d`",
     "FOR Text Line `\x7bcustomers\x7d` -> `\x7bcustomer\x7d`",
     "FOREACH Csv Cell `\x7bcustomers\x7d` -> `\x7bcell\x7d`, `+\x7btranslatedCell\x7d`",
     "EACH Csv Row `\x7bcustomers\x7d` -> " ++
       "`\x7bfirstName\x7d`, `\x7blastName\x7d`, `+\x7bemail\x7d`"]
  | action => ["ACTION"]
  | instrument => ["INSTRUMENT"]

end CommandKind

/-- A format whose parts a task can run over, with the names of the parts. -/
structure ForeachFormat where
  name : String
  parts : List String
  deriving Repr, DecidableEq

namespace ForeachFormat

def all : List ForeachFormat :=
  [⟨"TEXT", ["LINE"]⟩, ⟨"CSV", ["ROW", "CELL"]⟩, ⟨"JSON", []⟩, ⟨"XML", []⟩]

def find? (name : String) : Option ForeachFormat := all.find? fun f => f.name == name

end ForeachFormat

end BookCompiler
