import BookCompiler.Script.Basic
import BookCompiler.Text.Alphabetic

namespace BookCompiler.Script.JavaScript

open Text

def keywords : List String :=
  ["async", "await", "break", "case", "catch", "class", "const", "continue", "debugger",
   "default", "delete", "do", "else", "export", "extends", "false", "finally", "for", "from",
   "function", "get", "if", "import", "in", "instanceof", "let", "new", "null", "of", "return",
   "set", "static", "super", "switch", "this", "throw", "true", "try", "typeof", "undefined",
   "var", "void", "while", "with", "yield", "arguments", "NaN", "Infinity"]

def expressionKeywords : List String :=
  ["return", "typeof", "case", "do", "else", "in", "of", "new", "delete", "void", "throw",
   "instanceof", "yield", "await"]

/-- Names that every script can use: those of the language, then the text utilities. -/
def globals : List String :=
  ["Math", "JSON", "console", "Object", "Array", "String", "Number", "Boolean", "Date",
   "RegExp", "Error", "TypeError", "RangeError", "Promise", "Map", "Set", "WeakMap", "WeakSet",
   "Symbol", "BigInt", "Intl", "parseInt", "parseFloat", "isNaN", "isFinite",
   "encodeURIComponent", "decodeURIComponent", "encodeURI", "decodeURI", "globalThis",
   "setTimeout", "clearTimeout", "structuredClone",
   "spaceTrim", "removeQuotes", "unwrapResult", "trimEndOfCodeBlock", "trimCodeBlock", "trim",
   "reverse", "removeEmojis", "prettifyMarkdown", "capitalize", "decapitalize",
   "nameToUriPart", "nameToUriParts", "removeDiacritics", "normalizeTo_SCREAMING_CASE",
   "normalizeTo_camelCase", "normalizeTo_kebab_case", "normalizeTo_PascalCase",
   "normalizeTo_snake_case", "normalizeWhitespaces", "parseKeywords", "isValidJsonString",
   "extractAllItemsFromMarkdown", "extractAllListItemsFromMarkdown",
   "extractOneBlockFromMarkdown", "extractBlock", "countCharacters", "countLines",
   "countPages", "countParagraphs", "countSentences", "countWords"]

def typeNames : List String :=
  ["string", "number", "boolean", "any", "unknown", "never", "object", "Record", "Partial",
   "Readonly", "Array", "type", "interface", "as"]

def isNameStart (c : Char) : Bool := isLetter c || c = '_' || c = '$'

def isNamePart (c : Char) : Bool := isLetterOrNumeral c || c = '_' || c = '$'

def isNumberPart (c : Char) : Bool := isLetterOrNumeral c || c = '.' || c = '_'

def regexAllowed : List Token → Bool
  | [] => true
  | .name text :: _ => expressionKeywords.contains text
  | .opener _ :: _ => true
  | .symbol _ :: _ => true
  | _ => false

def blockCommentLength : List Char → Nat
  | [] => 0
  | '*' :: '/' :: _ => 2
  | _ :: rest => blockCommentLength rest + 1

/-- The length of a string from after its opening quote. It ends also with the line. -/
def stringLength (quote : Char) (escaped : Bool) : List Char → Nat
  | [] => 0
  | c :: rest =>
    if escaped then stringLength quote false rest + 1
    else if c = '\\' then stringLength quote true rest + 1
    else if c = '\n' || c = quote then 1
    else stringLength quote false rest + 1

/-- The length of a regular expression from after its opening slash, without the flags. A slash in
a character class does not end it. -/
def regexLength (inClass escaped : Bool) : List Char → Nat
  | [] => 0
  | c :: rest =>
    if escaped then regexLength inClass false rest + 1
    else if c = '\\' then regexLength inClass true rest + 1
    else if c = '[' then regexLength true false rest + 1
    else if c = ']' then regexLength false false rest + 1
    else if (c = '/' && !inClass) || c = '\n' then 1
    else regexLength inClass false rest + 1

inductive ExpressionMode where
  | code
  | quoted (quote : Char)
  | template (nested : Nat)
  deriving Repr, DecidableEq

/-- The length of a template expression up to its closing brace. `depth` counts the open braces and
`previous` is the character before the text. -/
def expressionLength (mode : ExpressionMode) (depth : Nat) (escaped : Bool) (previous : Char) :
    List Char → Except Failure Nat
  | [] => .error (.fault .openTemplateExpression)
  | c :: rest =>
    let next (mode : ExpressionMode) (depth : Nat) (escaped : Bool) : Except Failure Nat :=
      (expressionLength mode depth escaped c rest).map (· + 1)
    if escaped then next mode depth false
    else
      match mode with
      | .code =>
        if c = '\x7b' then next .code (depth + 1) false
        else if c = '\x7d' then
          match depth with
          | 0 => .error .crash
          | 1 => .ok 0
          | depth + 1 => next .code depth false
        else if c = '\x60' then next (.template 0) depth false
        else if c = '"' || c = '\'' then next (.quoted c) depth false
        else next .code depth false
      | .quoted quote =>
        if c = '\\' then next mode depth true
        else if c = '\n' || c = quote then next .code depth false
        else next mode depth false
      | .template nested =>
        if c = '\\' then next mode depth true
        else if c = '\x7b' && previous = '$' then next (.template (nested + 1)) depth false
        else if c = '\x7d' && 0 < nested then next (.template (nested - 1)) depth false
        else if c = '\x60' && nested = 0 then next .code depth false
        else next mode depth false

structure Template where
  expressions : List (List Char)
  length : Except Failure Nat

def Template.after (expressions : List (List Char)) (count : Nat) (t : Template) : Template :=
  ⟨expressions ++ t.expressions, t.length.map (· + count)⟩

def readTemplate (more : Nat) : List Char → Template
  | [] => ⟨[], .error (.fault .openTemplate)⟩
  | c :: rest =>
    if more ≠ 0 then (readTemplate (more - 1) rest).after [] 1
    else if c = '\\' then (readTemplate 1 rest).after [] 1
    else if c = '\x60' then ⟨[], .ok 1⟩
    else if c = '$' && rest.head? == some '\x7b' then
      match expressionLength .code 1 false '\x7b' rest.tail with
      | .error e => ⟨[], .error e⟩
      | .ok n => (readTemplate (n + 2) rest).after [rest.tail.take n] 1
    else (readTemplate 0 rest).after [] 1

/-- An expression in a template stands in round brackets between two signs. -/
def expressionTokens (nested : List Token) : List Token :=
  [.literal, .symbol .other, .opener .round] ++ nested ++ [.closer .round, .symbol .other]

def templateTokens (nested : List Char → Except Failure (List Token)) (t : Template) :
    Except Failure (List Token × Nat) := do
  let expressions ← t.expressions.mapM nested
  let length ← t.length
  pure (expressions.flatMap expressionTokens ++ [.literal], length)

def symbolOf (c : Char) : Symbol :=
  if c = '.' then .dot
  else if c = ',' then .comma
  else if c = ';' then .semicolon
  else if c = ':' then .colon
  else if c = '=' then .assign
  else .other

def signToken (c : Char) (rest : List Char) : Token × Nat :=
  match bracketToken? c with
  | some token => (token, 0)
  | none =>
    match c, rest with
    | '.', '.' :: '.' :: _ => (.symbol .spread, 2)
    | '=', '>' :: _ => (.symbol .arrow, 1)
    | '?', '.' :: _ => (.symbol .optionalDot, 1)
    | _, _ => (.symbol (symbolOf c), 0)

/-- One lexeme. The state holds the tokens read before it, last one first. -/
def lexeme (nested : List Char → Except Failure (List Token)) (before : List Token) (c : Char)
    (rest : List Char) : Except Failure (List Token × Nat) :=
  if isBlank c then .ok (before, 0)
  else if c = '/' && rest.head? == some '/' then .ok (before, countWhile (· ≠ '\n') rest)
  else if c = '/' && rest.head? == some '*' then .ok (before, blockCommentLength rest.tail + 1)
  else if c = '"' || c = '\'' then .ok (.literal :: before, stringLength c false rest)
  else if c = '\x60' then do
    let (tokens, more) ← templateTokens nested (readTemplate 0 rest)
    pure (tokens.reverse ++ before, more)
  else if c = '/' && regexAllowed before then
    let body := regexLength false false rest
    .ok (.literal :: before, body + countWhile Char.isAlpha (rest.drop body))
  else if c.isDigit then .ok (.literal :: before, countWhile isNumberPart rest)
  else if isNameStart c then
    .ok (.name (String.ofList (c :: rest.takeWhile isNamePart)) :: before,
      countWhile isNamePart rest)
  else
    let (token, more) := signToken c rest
    .ok (token :: before, more)

def tokensWithin (limit : Nat) : (levels : Nat) → List Char → Except Failure (List Token)
  | 0, _ => .error (.fault (.nestedTooDeep limit))
  | levels + 1, s =>
    (scan (lexeme fun expression => tokensWithin limit levels expression) [] 0 s).map List.reverse

def tokens (limits : Limits) (s : List Char) : Except Failure (List Token) :=
  tokensWithin limits.maxNesting (limits.maxNesting + 1) s

def bindsAfter : Option Token → Bool
  | some (.opener _) => true
  | some (.symbol .comma) => true
  | some (.symbol .spread) => true
  | _ => false

/-- The names bound in a pattern, given the two tokens before the text. The last token of the text
is looked at, but not bound. -/
def boundNames (second first : Option Token) : List Token → List String
  | t :: next :: rest =>
    let here :=
      match t with
      | .name text =>
        let isKey := next = .symbol .colon
        let isAlias := first = some (.symbol .colon) && (second.bind Token.name?).isSome
        if (bindsAfter first && !isKey) || isAlias then [text] else []
      | _ => []
    here ++ boundNames first (some t) (next :: rest)
  | _ => []

def bindings (tokens : List Token) : List String :=
  match tokens with
  | [] => []
  | opener :: _ =>
    let close := (closeOffset 0 tokens).getD (tokens.length - 1)
    boundNames none (some opener) (tokens.take (close + 1)).tail

def hasBody (after : List Token) : Bool :=
  match closeOffset 0 after with
  | some close => after[close + 1]? == some (.opener .curly)
  | none => false

def isMethod (before : List Token) (text : String) (after : List Token) : Bool :=
  !keywords.contains text &&
    before.head? != some (.symbol .dot) && before.head? != some (.symbol .optionalDot) &&
    before.head? != some (.name "function") &&
    after.head? == some (.opener .round) && hasBody after

inductive VariableMode where
  | variable
  | value (depth : Nat)
  deriving Repr, DecidableEq

def variableNames : VariableMode → List Token → List String
  | _, [] => []
  | .variable, t :: rest =>
    match t with
    | .name text => text :: variableNames (.value 0) rest
    | .opener .round => []
    | .opener _ => bindings (t :: rest) ++ variableNames (.value 1) rest
    | _ => []
  | .value depth, t :: rest =>
    match t with
    | .opener _ => variableNames (.value (depth + 1)) rest
    | .closer _ => if depth = 0 then [] else variableNames (.value (depth - 1)) rest
    | .symbol .semicolon => if depth = 0 then [] else variableNames (.value depth) rest
    | .symbol .comma =>
      if depth = 0 then variableNames .variable rest else variableNames (.value depth) rest
    | .name text =>
      if depth = 0 && (text = "of" || text = "in") then [] else variableNames (.value depth) rest
    | _ => variableNames (.value depth) rest

def definitionNames (isFunction : Bool) (after : List Token) : List String :=
  let (name, rest) :=
    match after with
    | .name text :: rest => ([text], rest)
    | _ => ([], after)
  if isFunction && rest.head? == some (.opener .round) then name ++ bindings rest else name

def namesAtWord (before : List Token) (text : String) (after : List Token) : List String :=
  if text = "let" || text = "const" || text = "var" then variableNames .variable after
  else if text = "function" || text = "class" then definitionNames (text = "function") after
  else if text = "catch" && after.head? == some (.opener .round) then bindings after
  else if isMethod before text after then bindings after
  else []

def namesAtArrow (before after : List Token) : List String :=
  match before with
  | .name text :: _ => [text]
  | .closer .round :: _ =>
    match openOffset 0 before with
    | some n => bindings ((before.take (n + 1)).reverse ++ after)
    | none => []
  | _ => []

def declaredFrom (before : List Token) : List Token → List String
  | [] => []
  | t :: after =>
    let here :=
      match t with
      | .name text => namesAtWord before text after
      | .symbol .arrow => namesAtArrow before (t :: after)
      | _ => []
    here ++ declaredFrom (t :: before) after

def declared (tokens : List Token) : List String := declaredFrom [] tokens

def isKey (before after : List Token) : Bool :=
  after.head? == some (.symbol .colon) &&
    (before.head? == some (.opener .curly) || before.head? == some (.symbol .comma))

/-- Whether a name is read at its place, and not a property, a method or a key. -/
def isRead (before : List Token) (text : String) (after : List Token) : Bool :=
  before.head? != some (.symbol .dot) && before.head? != some (.symbol .optionalDot) &&
    !isMethod before text after && !isKey before after

def readFrom (known : String → Bool) (before : List Token) : List Token → List String
  | [] => []
  | t :: after =>
    let here :=
      match t with
      | .name text => if !known text && isRead before text after then [text] else []
      | _ => []
    here ++ readFrom known (t :: before) after

def isBuiltIn (typed : Bool) (text : String) : Bool :=
  keywords.contains text || globals.contains text || (typed && typeNames.contains text)

def freeNamesOf (typed : Bool) (tokens : List Token) : List String :=
  let declared := declared tokens
  readFrom (fun text => isBuiltIn typed text || declared.contains text) [] tokens

def freeNames (limits : Limits) (typed : Bool) (script : List Char) :
    Except Failure (List String) := do
  let tokens ← tokens limits script
  checkIdentifiers limits tokens
  pure (freeNamesOf typed tokens)

end BookCompiler.Script.JavaScript
