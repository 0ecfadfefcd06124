import BookCompiler.Command.Basic
import BookCompiler.Command.Version
import BookCompiler.Decimal.Format
import BookCompiler.Name.Reference
import BookCompiler.Pipeline.Formfactor

namespace BookCompiler

inductive Argument where
  | version
  | url
  | parameterName
  | personaName
  | knowledgeSource
  | formfactorName
  | modelRequirement
  | modelRequirementValue
  | sign
  | amount
  | unit
  | functionName
  | format
  | subformat
  | arrow
  deriving Repr, DecidableEq

def Argument.name : Argument → String
  | version => "version"
  | url => "url"
  | parameterName => "parameter name"
  | personaName => "persona name"
  | knowledgeSource => "knowledge source"
  | formfactorName => "formfactor name"
  | modelRequirement => "model requirement"
  | modelRequirementValue => "model requirement value"
  | sign => "sign"
  | amount => "amount"
  | unit => "unit"
  | functionName => "function name"
  | format => "format"
  | subformat => "subformat"
  | arrow => "->"

inductive ValueFault where
  | extraArguments (arguments : List String)
  | notAVersion (text : String) (fault : Version.Fault)
  | insecureUrl
  | notHttps
  | badHost (host : String)
  | blankInUrl
  | fragmentInUrl
  | queryInUrl
  | bracesInDescription (description : String)
  | insecureKnowledge (content : String)
  | unknownFormfactor (text : String)
  | unknownSectionType
  | ambiguousSectionType (types : List SectionType)
  | embeddingVariant
  | unknownVariant (text : String)
  | temperatureNotANumber (text : String)
  | temperatureOutOfRange (value : Binary64)
  | notWhole (key text : String)
  | unknownRequirement (key : String)
  | unknownSign (text : String)
  | amountNotANumber (text : String)
  | negativeAmount
  | fractionalAmount
  | amountTooLarge
  | unknownUnit (text : String)
  | ambiguousUnit (text : String) (units : List ExpectUnit)
  | unsupportedResultFormat
  | badFunctionName (text : String)
  | unsupportedFormat (text : String)
  | formatWithoutParts (format : String)
  | unknownPart (format : ForeachFormat) (text : String)
  | noArrow (parameter found : String)
  | noSubparameter
  | noOutputSubparameter (format part : String)
  | manyOutputSubparameters
  | codeBlockCount (count : Nat)
  | manyCodeBlocks (count : Nat)
  deriving Repr, DecidableEq

def commaList (items : List String) : String := String.intercalate ", " items

def bulletList (items : List String) : String :=
  String.intercalate "\n" (items.map fun item => "- " ++ item)

namespace ValueFault

def field : ValueFault → String
  | extraArguments _ => "arguments"
  | notAVersion _ _ => "version"
  | insecureUrl | notHttps | badHost _ | blankInUrl | fragmentInUrl | queryInUrl => "url"
  | bracesInDescription _ => "parameter description"
  | insecureKnowledge _ => "knowledge source"
  | unknownFormfactor _ => "formfactor name"
  | unknownSectionType | ambiguousSectionType _ => "section type"
  | embeddingVariant | unknownVariant _ => "VARIANT"
  | temperatureNotANumber _ | temperatureOutOfRange _ => "TEMPERATURE"
  | notWhole key _ => key
  | unknownRequirement _ => "model requirement"
  | unknownSign _ => "sign"
  | amountNotANumber _ | negativeAmount | fractionalAmount | amountTooLarge => "amount"
  | unknownUnit _ | ambiguousUnit _ _ => "unit"
  | unsupportedResultFormat | unsupportedFormat _ => "format"
  | badFunctionName _ => "function name"
  | formatWithoutParts _ | unknownPart _ _ => "subformat"
  | noArrow _ _ => "->"
  | noSubparameter => "subparameters"
  | noOutputSubparameter _ _ | manyOutputSubparameters => "output subparameter"
  | codeBlockCount _ => "code block"
  | manyCodeBlocks _ => "content"

def reason : ValueFault → String
  | extraArguments arguments =>
    "Unexpected extra arguments: " ++ String.intercalate " " arguments
  | notAVersion text fault =>
    "\"" ++ text ++ "\" is not a valid semantic version: " ++ fault.message
  | insecureUrl => "Pipeline URL must use https, http is not secure"
  | notHttps => "Pipeline URL must start with https://"
  | badHost host => s!"\"{host}\" is not a valid host"
  | blankInUrl => "Pipeline URL can not contain whitespace"
  | fragmentInUrl => "Pipeline URL can not contain a #fragment"
  | queryInUrl => "Pipeline URL can not contain a ?query"
  | bracesInDescription description =>
    "Parameter description can not contain curly braces, it looks like it contains another " ++
      s!"parameter:\n\n{description}"
  | insecureKnowledge content => s!"Source \"{content}\" is not secure, use https"
  | unknownFormfactor text =>
    s!"Unknown formfactor \"{text}\", supported formfactors are: " ++
      commaList (Formfactor.all.map Formfactor.name)
  | unknownSectionType =>
    "Unknown section type, supported types are: " ++
      commaList (SectionType.all.map SectionType.keyword)
  | ambiguousSectionType types =>
    "Section type is ambiguous, the command mentions " ++
      String.intercalate " and " (types.map SectionType.keyword)
  | embeddingVariant =>
    "Embedding model can not be used in a pipeline, only CHAT and COMPLETION are supported"
  | unknownVariant text =>
    s!"Unknown model variant \"{text}\", supported variants are CHAT and COMPLETION"
  | temperatureNotANumber text => s!"\"{text}\" is not a number"
  | temperatureOutOfRange value =>
    "Temperature must be between 0 and 2, got " ++ Decimal.plain.render value
  | notWhole _ text => s!"\"{text}\" is not a positive whole number"
  | unknownRequirement key =>
    s!"Unknown model requirement \"{key}\", " ++
      "supported are VARIANT, NAME, TEMPERATURE, MAX_TOKENS and SEED"
  | unknownSign text => s!"Invalid sign \"{text}\", expected EXACTLY, MINIMUM or MAXIMUM"
  | amountNotANumber text => s!"\"{text}\" is not a number"
  | negativeAmount => "Amount must be positive number or zero"
  | fractionalAmount => "Amount must be whole number"
  | amountTooLarge => "Amount is too large"
  | unknownUnit text =>
    s!"Invalid unit \"{text}\", supported units are " ++
      commaList (ExpectUnit.all.map ExpectUnit.plural)
  | ambiguousUnit text units =>
    s!"Ambiguous unit \"{text}\", it could be " ++
      String.intercalate " or " (units.map ExpectUnit.name)
  | unsupportedResultFormat => "For now only JSON format is supported"
  | badFunctionName text => s!"\"{text}\" is not a valid function name"
  | unsupportedFormat text =>
    s!"Unsupported format \"{text}\", supported formats are " ++
      commaList (ForeachFormat.all.map ForeachFormat.name)
  | formatWithoutParts format => s!"Format {format} has no parts to iterate over yet"
  | unknownPart format text =>
    "Format " ++ format.name ++ s!" can not be iterated by \"{text}\", use " ++
      String.intercalate " or " format.parts
  | noArrow parameter found =>
    "Expected -> after " ++ braced parameter ++ s!" but found \"{found}\""
  | noSubparameter => "At least one subparameter must follow ->"
  | noOutputSubparameter format part =>
    s!"FOREACH {format} {part} needs the output subparameter marked with +, e.g. +" ++
      braced "newValue"
  | manyOutputSubparameters => "Only one output subparameter can be marked with +"
  | codeBlockCount count => s!"Expected exactly one code block, found {count}"
  | manyCodeBlocks count => s!"A section can contain at most one code block, found {count}"

end ValueFault

inductive StructureFault where
  | noHeading (text : String)
  | emptyBook
  | headLevel (level : Nat) (title : String)
  | sectionLevel (level : Nat) (title : String)
  deriving Repr, DecidableEq

def StructureFault.message : StructureFault → String
  | noHeading text => s!"Markdown section must start with a heading:\n\n{text}"
  | emptyBook => "Book is empty, it must contain at least the `#` head"
  | headLevel level title =>
    s!"Book must start with a level 1 heading, found level {level} heading \"{title}\""
  | sectionLevel level title =>
    s!"Sections of a book must be level 2 headings, found level {level} heading \"{title}\""

inductive ParseError where
  | structural (fault : StructureFault)
  | invalidSection (title : String) (cause : ParseError)
  | multiline (line : String)
  | unknownCommand (line : String) (place : Place) (supported : List CommandKind)
  | ambiguousCommand (line : String) (place : Place) (candidates supported : List CommandKind)
  | notAllowed (line : String) (kind : CommandKind) (place : Place) (allowed : List CommandKind)
  | invalidCommand (line : String) (kind : CommandKind) (cause : ParseError)
  | missing (argument : Argument)
  | invalidValue (fault : ValueFault)
  | parameter (error : ParameterError)
  deriving Repr, DecidableEq

def kindList (kinds : List CommandKind) : String := bulletList (kinds.map CommandKind.name)

def ParseError.message : ParseError → String
  | structural fault => "Structural error: " ++ fault.message
  | invalidSection title cause => s!"Invalid section \"{title}\": " ++ cause.message
  | multiline line => s!"Command can not contain new lines:\n\n{line}"
  | unknownCommand line place supported =>
    s!"Unknown command:\n\n- {line}\n\nSupported commands in the " ++ place.name ++ " are:\n" ++
      kindList supported
  | ambiguousCommand line place candidates supported =>
    s!"Ambiguous command:\n\n- {line}\n\nIt matches commands " ++
      commaList (candidates.map CommandKind.name) ++ "\n\nSupported commands in the " ++
      place.name ++ " are:\n" ++ kindList supported
  | notAllowed line kind place allowed =>
    "Command " ++ kind.name ++ " is not allowed in the " ++ place.name ++ s!":\n\n- {line}\n\n" ++
      "Commands allowed in the " ++ place.name ++ " are:\n" ++ kindList allowed
  | invalidCommand line kind cause =>
    "Invalid " ++ kind.name ++ s!" command:\n\nYour command:\n- {line}\n\n" ++
      "The detailed error:\n" ++ cause.message ++ "\n\nUsage of " ++ kind.name ++ ":\n" ++
      bulletList kind.examples
  | missing argument => "Missing required argument: " ++ argument.name
  | invalidValue fault => "Invalid value for '" ++ fault.field ++ "': " ++ fault.reason
  | parameter error => error.message

inductive ApplyFault where
  | noContent (type : SectionType) (title : String)
  | sampleWithoutTarget (title : String)
  | sampleOfUndefined (title parameter : String)
  | scriptWithoutResult (title : String)
  | crossedBounds (unit : ExpectUnit) (min max : UInt32) (title : String)
  | secondForeach (title parameter : String)
  | foreign (command : CommandKind) (handler : CommandKind)
  deriving Repr, DecidableEq

def ApplyFault.message : ApplyFault → String
  | noContent type title => type.keyword ++ s!" section \"{title}\" has no content"
  | sampleWithoutTarget title =>
    s!"Example section \"{title}\" must end with -> " ++ braced "parameterName" ++
      " naming the parameter it is an example of"
  | sampleOfUndefined title parameter =>
    s!"Example section \"{title}\" refers to undefined parameter " ++ braced parameter ++
      ", define the parameter before its examples"
  | scriptWithoutResult title =>
    s!"Script section \"{title}\" must end with a return statement -> " ++ braced "parameterName"
  | crossedBounds unit min max title =>
    "Minimum " ++ unit.plural ++ s!" ({min}) can not be greater than maximum ({max}) " ++
      s!"in the task \"{title}\""
  | secondForeach title parameter =>
    s!"Task \"{title}\" can iterate only over one parameter, FOREACH is already defined over " ++
      braced parameter
  | foreign command handler =>
    command.typeName ++ " command can not be applied by the " ++ handler.name ++ " parser"

/-- Why a command conflicts with what was applied before it. -/
inductive ApplyError where
  | redefinition (what first second : String)
  | sectionTypeRedefinition (first second : SectionType)
  | invalid (fault : ApplyFault)
  | notApplicable (command : CommandKind) (place : Place)
  | parameter (error : ParameterError)
  deriving Repr, DecidableEq

def ApplyError.message : ApplyError → String
  | redefinition what first second =>
    s!"{what} is already defined as \"{first}\", it can not be redefined to \"{second}\""
  | sectionTypeRedefinition first second =>
    "Section type is already defined in the section as " ++ first.keyword ++
      " SECTION, it can not be changed to " ++ second.keyword ++
      " SECTION.\nIt can be defined only once."
  | invalid fault => fault.message
  | notApplicable command place =>
    "Command " ++ command.typeName ++ " can not be applied in the " ++ place.name
  | parameter error => error.message

end BookCompiler
