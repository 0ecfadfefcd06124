import BookCompiler.Command.Line
import BookCompiler.Text.Case

namespace BookCompiler

open Text

def defaultLineOutput : String := "newLine"

namespace Invocation

abbrev Reads (α : Type) := Except ParseError α

def next (argument : Argument) : List String → Reads (String × List String)
  | [] => .error (.missing argument)
  | first :: rest => .ok (first, rest)

def noMore : List String → Reads Unit
  | [] => .ok ()
  | rest => .error (.invalidValue (.extraArguments rest))

def fault {α : Type} (f : ValueFault) : Reads α := .error (.invalidValue f)

def reference (raw : String) : Reads String :=
  match Name.readReference raw with
  | .ok name => .ok name
  | .error e => .error (.parameter e)

def dropVersionWord : List String → List String
  | first :: rest =>
    if first.toList.map Char.toUpper = "VERSION".toList then rest else first :: rest
  | [] => []

def bookVersion (i : Invocation) : Reads Command := do
  let (version, rest) ← next .version (dropVersionWord i.arguments)
  noMore rest
  match Version.check version.toList with
  | .ok () => pure (.bookVersion version)
  | .error f => fault (.notAVersion version f)

def urlFault (url : List Char) : Option ValueFault :=
  let secure := "https://".toList
  if "http://".toList.isPrefixOf url then some .insecureUrl
  else if !secure.isPrefixOf url then some .notHttps
  else
    let host := (url.drop secure.length).takeWhile (· ≠ '/')
    if !host.contains '.' then some (.badHost (String.ofList host))
    else if url.any isBlank then some .blankInUrl
    else if url.contains '#' then some .fragmentInUrl
    else if url.contains '?' then some .queryInUrl
    else none

def url (i : Invocation) : Reads Command := do
  let (url, rest) ← next .url i.arguments
  noMore rest
  match urlFault url.toList with
  | some f => fault f
  | none => pure (.url url)

def descriptionAfterName (text : String) : Option (List Char) :=
  match splitOnce isBlank (trim text.toList) with
  | some (_, rest) => if (trim rest).isEmpty then none else some (trim rest)
  | none => none

def parameter (i : Invocation) : Reads Command := do
  let (raw, _) ← next .parameterName i.arguments
  let name ← reference raw
  let description := descriptionAfterName i.text
  match description with
  | some text =>
    if text.contains '\x7b' || text.contains '\x7d' then
      fault (.bracesInDescription (String.ofList text))
    else pure ()
  | none => pure ()
  let line := (String.intercalate "_" i.words).toList
  pure (.parameter
    { name, description := description.map String.ofList
      isInput := "INPUT".toList.isPrefixOf line, isOutput := "OUTPUT".toList.isPrefixOf line })

def isPersonaDivider (c : Char) : Bool := c = ',' || c = ';' || c = ':'

def persona (i : Invocation) : Reads Command :=
  let text := trim i.text.toList
  let (name, description) :=
    match splitOnce isPersonaDivider text with
    | some (name, description) => (trim name, trim description)
    | none => (text, [])
  if name.isEmpty then .error (.missing .personaName)
  else
    .ok (.persona (String.ofList name)
      (if description.isEmpty then none else some (String.ofList description)))

def knowledge (i : Invocation) : Reads Command :=
  let content := trim i.text.toList
  if content.isEmpty then .error (.missing .knowledgeSource)
  else if "http://".toList.isPrefixOf content then
    fault (.insecureKnowledge (String.ofList content))
  else .ok (.knowledge (String.ofList content))

def formfactor (i : Invocation) : Reads Command :=
  let requested := Name.screaming i.text
  if requested.isEmpty then .error (.missing .formfactorName)
  else
    match Formfactor.find? requested with
    | some f => .ok (.formfactor f.name)
    | none => fault (.unknownFormfactor i.text)

/-- The line has to mention exactly one type of section. -/
def sectionType (i : Invocation) : Reads Command :=
  let line := (String.intercalate "_" i.words).toList
  match SectionType.all.filter fun type => Text.contains type.keyword.toList line with
  | [type] => .ok (.sectionType type)
  | [] => fault .unknownSectionType
  | types => fault (.ambiguousSectionType types)

def modelVariant (value : String) : Reads Requirement :=
  let name := Name.screaming value
  if name = "CHAT" then .ok (.variant .chat)
  else if name = "COMPLETION" then .ok (.variant .completion)
  else if name = "EMBEDDING" then fault .embeddingVariant
  else fault (.unknownVariant value)

def temperature (value : String) : Reads Requirement :=
  match Decimal.read value with
  | none => fault (.temperatureNotANumber value)
  | some t =>
    if t.isBelowZero || !t.atMost 2 then fault (.temperatureOutOfRange t)
    else .ok (.temperature t)

def requirement (key value : String) : Reads Requirement :=
  if key = "VARIANT" then modelVariant value
  else if key = "NAME" then .ok (.name value)
  else if key = "TEMPERATURE" then temperature value
  else if key = "MAX_TOKENS" then
    match Decimal.readWhole UInt32.size value with
    | some n => .ok (.maxTokens (UInt32.ofNat n))
    | none => fault (.notWhole key value)
  else if key = "SEED" then
    match Decimal.readWhole UInt64.size value with
    | some n => .ok (.seed (UInt64.ofNat n))
    | none => fault (.notWhole key value)
  else fault (.unknownRequirement key)

def model (i : Invocation) : Reads Command :=
  match i.arguments.getLast? with
  | none => .error (.missing .modelRequirement)
  | some value =>
    match i.arguments.dropLast with
    | [] => .error (.missing .modelRequirementValue)
    | key => (requirement (Name.screaming (String.intercalate " " key)) value).map .model

def sign (raw : String) : Reads ExpectSign :=
  let word := upper raw.toList
  if "EXACT".toList.isPrefixOf word then .ok .exactly
  else if "MIN".toList.isPrefixOf word then .ok .minimum
  else if "MAX".toList.isPrefixOf word then .ok .maximum
  else fault (.unknownSign raw)

def amount (raw : String) : Reads UInt32 :=
  match Decimal.read raw with
  | none => fault (.amountNotANumber raw)
  | some x =>
    if x.isBelowZero then fault .negativeAmount
    else
      match x.wholeSize? with
      | none => fault .fractionalAmount
      | some n => if n < UInt32.size then .ok (UInt32.ofNat n) else fault .amountTooLarge

/-- Units that begin with the word, or with the word without its last S. -/
def unitsLike (word : List Char) : List ExpectUnit :=
  let stem := if word.getLast? == some 'S' then word.dropLast else []
  ExpectUnit.all.filter fun unit =>
    word.isPrefixOf unit.plural.toList ||
      (!stem.isEmpty && stem.isPrefixOf unit.plural.toList)

def unit (raw : String) : Reads ExpectUnit :=
  let word := upper raw.toList
  if word.isEmpty then .error (.missing .unit)
  else
    match ExpectUnit.all.find? fun unit =>
        unit.plural.toList == word || unit.singular.toList == word with
    | some unit => .ok unit
    | none =>
      match unitsLike word with
      | [unit] => .ok unit
      | [] => fault (.unknownUnit raw)
      | units => fault (.ambiguousUnit raw units)

def expectAmount (i : Invocation) : Reads Command := do
  let (rawSign, rest) ← next .sign i.arguments
  let sign ← sign rawSign
  let (rawAmount, rest) ← next .amount rest
  let amount ← amount rawAmount
  let (rawUnit, rest) ← next .unit rest
  let unit ← unit rawUnit
  noMore rest
  pure (.expectAmount sign unit amount)

def expectFormat (i : Invocation) : Reads Command :=
  if i.words.contains "JSON" then .ok (.expectFormat .json) else fault .unsupportedResultFormat

def joker (i : Invocation) : Reads Command := do
  let (raw, rest) ← next .parameterName i.arguments
  let name ← reference raw
  noMore rest
  pure (.joker name)

def postprocess (i : Invocation) : Reads Command := do
  let (function, rest) ← next .functionName i.arguments
  noMore rest
  if Name.isIdentifier function then pure (.postprocess function)
  else fault (.badFunctionName function)

def namesPart (word part : String) : Bool := word = part || word = part ++ "S"

def foreachFormat (rawFormat rawPart : String) : Reads (String × String) :=
  match ForeachFormat.find? (Name.screaming rawFormat) with
  | none => fault (.unsupportedFormat rawFormat)
  | some format =>
    if format.parts.isEmpty then fault (.formatWithoutParts format.name)
    else
      match format.parts.find? (namesPart (Name.screaming rawPart)) with
      | some part => .ok (format.name, part)
      | none => fault (.unknownPart format rawPart)

def subparameterPieces (arguments : List String) : List (List Char) :=
  let pieces := arguments.flatMap fun argument => split (· = ',') argument.toList
  (pieces.map fun piece => trimMatching (· = '\x60') (trim piece)).filter (!·.isEmpty)

/-- Inputs and outputs among the subparameters; an output is marked with a plus sign. -/
def subparameters : List (List Char) → Reads (List String × List String)
  | [] => .ok ([], [])
  | ('+' :: piece) :: rest => do
    let name ← reference (String.ofList piece)
    let (inputs, outputs) ← subparameters rest
    pure (inputs, name :: outputs)
  | piece :: rest => do
    let name ← reference (String.ofList piece)
    let (inputs, outputs) ← subparameters rest
    pure (name :: inputs, outputs)

def outputSubparameter (format part : String) : List String → Reads String
  | [output] => .ok output
  | [] =>
    if format = "TEXT" && part = "LINE" then .ok defaultLineOutput
    else fault (.noOutputSubparameter format part)
  | _ => fault .manyOutputSubparameters

def foreach (i : Invocation) : Reads Command := do
  let (rawFormat, rest) ← next .format i.arguments
  let (rawPart, rest) ← next .subformat rest
  let (format, subformat) ← foreachFormat rawFormat rawPart
  let (rawParameter, rest) ← next .parameterName rest
  let parameter ← reference rawParameter
  let (arrow, rest) ← next .arrow rest
  if arrow ≠ "->" then fault (.noArrow parameter arrow)
  let (inputs, outputs) ← subparameters (subparameterPieces rest)
  if inputs.isEmpty then fault .noSubparameter
  let output ← outputSubparameter format subformat outputs
  pure (.foreach { format, subformat, parameter, inputs, output })

end Invocation

def CommandKind.read : CommandKind → Invocation → Except ParseError Command
  | bookVersion => Invocation.bookVersion
  | url => Invocation.url
  | formfactor => Invocation.formfactor
  | parameter => Invocation.parameter
  | persona => Invocation.persona
  | knowledge => Invocation.knowledge
  | sectionType => Invocation.sectionType
  | model => Invocation.model
  | expectAmount => Invocation.expectAmount
  | expectFormat => Invocation.expectFormat
  | joker => Invocation.joker
  | postprocess => Invocation.postprocess
  | foreach => Invocation.foreach
  | action => fun _ => .ok .action
  | instrument => fun _ => .ok .instrument

end BookCompiler
