import BookCompiler.Command.Error
import BookCompiler.Script.Basic

namespace BookCompiler

inductive LogicFault where
  | parameterRepeated (name : String)
  | taskRepeated (name : String)
  | undefinedParameter (name title : String)
  | producedTwice (name first second : String)
  | producedInput (name title : String)
  | uncheckedJoker (title : String)
  | crossedBounds (unit : ExpectUnit) (min max : UInt32) (title : String)
  | unresolvable (waiting : List (String × List String))
  deriving Repr, DecidableEq

def LogicFault.message : LogicFault → String
  | parameterRepeated name => "Parameter " ++ braced name ++ " is defined multiple times"
  | taskRepeated name => s!"Task name \"{name}\" is used by multiple tasks"
  | undefinedParameter name title =>
    "Parameter " ++ braced name ++
      s!" is used in the task \"{title}\" but not defined in the pipeline"
  | producedTwice name first second =>
    "Parameter " ++ braced name ++ s!" is produced by both tasks \"{first}\" and \"{second}\""
  | producedInput name title =>
    "Parameter " ++ braced name ++
      s!" is an input parameter, it can not be the result of the task \"{title}\""
  | uncheckedJoker title =>
    s!"Joker parameters are used in the task \"{title}\" " ++
      "but it has no expectations or format to check them against"
  | crossedBounds unit min max title =>
    "Minimum " ++ unit.plural ++ s!" ({min}) is greater than maximum ({max}) " ++
      s!"in the task \"{title}\""
  | unresolvable waiting =>
    let line (entry : String × List String) : String :=
      "\"" ++ entry.1 ++ "\" waits for " ++ commaList (entry.2.map braced)
    "Can not resolve some tasks, there is a circular or missing dependency:\n\n" ++
      bulletList (waiting.map line)

inductive SectionFault where
  | parameter (error : ParameterError)
  | nameTaken (name title : String)
  | noScriptLanguage (title : String)
  deriving Repr, DecidableEq

def SectionFault.message : SectionFault → String
  | parameter error => error.message
  | nameTaken name title =>
    s!"Task name \"{name}\" is already used by another section, rename the section \"{title}\""
  | noScriptLanguage title =>
    s!"Script section \"{title}\" must be written in a code block marked with one of the " ++
      "supported languages: " ++ commaList (Script.Language.all.map Script.Language.name)

inductive CompileError where
  | unreadable (error : ParseError)
  | refused (error : ApplyError) (line : String) (kind : CommandKind) (state : String)
  | badSection (fault : SectionFault) (title : String) (state : String)
  | unowned (kind : CommandKind) (line : String)
  | script (fault : Script.Fault)
  | crash
  | logic (fault : LogicFault)
  | inPipeline (url : String) (cause : CompileError)
  deriving Repr, DecidableEq

namespace CompileError

def conflictText (message line : String) (usage : List String) (state : String) : String :=
  message ++ "\n\nCommand:\n- " ++ line ++ "\n\nUsage:\n" ++ bulletList usage ++
    "\n\nCurrent state:\n" ++ state

def message : CompileError → String
  | unreadable error => error.message
  | refused error line kind state => conflictText error.message line kind.examples state
  | badSection fault title state => conflictText fault.message ("## " ++ title) [] state
  | unowned kind line =>
    "Structural error: No parser owns the " ++ kind.typeName ++ s!" command \"{line}\""
  | script fault => "Script analysis error: " ++ fault.message
  | crash => "attempt to subtract with overflow"
  | logic fault => "Validation error: " ++ fault.message
  | inPipeline url cause => cause.message ++ "\n\nPipeline: " ++ url

def ofScript : Script.Failure → CompileError
  | .fault fault => script fault
  | .crash => crash

/-- Names the pipeline in which the error arose, once. A crash is not caught on its way. -/
def within (url : Option String) (e : CompileError) : CompileError :=
  match url, e with
  | _, inPipeline u cause => inPipeline u cause
  | _, crash => crash
  | some u, e => inPipeline u e
  | none, e => e

def root : CompileError → CompileError
  | inPipeline _ cause => cause.root
  | e => e

end CompileError

end BookCompiler
