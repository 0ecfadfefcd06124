import BookCompiler.Script.Basic
import BookCompiler.Text.Alphabetic

namespace BookCompiler.Script.Python

open Text

def keywords : List String :=
  ["False", "None", "True", "and", "as", "assert", "async", "await", "break", "class",
   "continue", "def", "del", "elif", "else", "except", "finally", "for", "from", "global", "if",
   "import", "in", "is", "lambda", "nonlocal", "not", "or", "pass", "raise", "return", "try",
   "while", "with", "yield", "self"]

def builtIns : List String :=
  ["print", "len", "range", "str", "int", "float", "bool", "list", "dict", "set", "tuple",
   "abs", "all", "any", "min", "max", "sum", "sorted", "reversed", "enumerate", "zip", "map",
   "filter", "isinstance", "type", "round", "repr", "format", "ord", "chr", "hex", "iter",
   "next", "super", "object", "Exception", "ValueError", "TypeError", "KeyError", "IndexError"]

def compoundKeywords : List String :=
  ["if", "elif", "else", "while", "for", "with", "try", "except", "finally"]

/-- Signs of several characters, those that others begin with first. -/
def longSigns : List (List Char × Symbol) :=
  [(['*', '*', '='], .other), (['/', '/', '='], .other), (['=', '='], .other),
   (['!', '='], .other), (['<', '='], .other), (['>', '='], .other), ([':', '='], .walrus),
   (['-', '>'], .other), (['+', '='], .other), (['-', '='], .other), (['*', '='], .other),
   (['/', '='], .other), (['%', '='], .other), (['*', '*'], .doubleStar), (['/', '/'], .other)]

def isNameStart (c : Char) : Bool := isLetter c || c = '_'

def isNamePart (c : Char) : Bool := isLetterOrNumeral c || c = '_'

def isNumberPart (c : Char) : Bool := isLetterOrNumeral c || c = '.' || c = '_'

def isQuote (c : Char) : Bool := c = '"' || c = '\''

def stringMark? : (lettersLeft : Nat) → List Char → Option (Nat × Bool)
  | _, [] => none
  | lettersLeft, c :: rest =>
    if isQuote c then some (0, false)
    else
      match lettersLeft with
      | 0 => none
      | left + 1 =>
        let formatted := c = 'f' || c = 'F'
        if formatted || ['r', 'R', 'b', 'B', 'u', 'U'].contains c then
          (stringMark? left rest).map fun (n, f) => (n + 1, formatted || f)
        else none

/-- A replacement field of a format string: the length of its expression and of the whole field with
the closing brace. `depth` counts the open brackets of all shapes. A round or square bracket too
many is passed over, a brace too many is not. -/
def fieldLengths (depth : Nat) (expression : Option Nat) (position : Nat) :
    List Char → Except Failure (Nat × Nat)
  | [] => .error (.fault .openReplacementField)
  | c :: rest =>
    let ends := depth = 1 && expression.isNone &&
      (c = ':' || (c = '!' && rest.head? != some '='))
    let expression := if ends then some position else expression
    let next (depth : Nat) : Except Failure (Nat × Nat) :=
      fieldLengths depth expression (position + 1) rest
    if c = '\x7b' || c = '(' || c = '[' then next (depth + 1)
    else if c = ')' || c = ']' then next (depth - 1)
    else if c = '\x7d' then
      match depth with
      | 0 => .error .crash
      | 1 => .ok (expression.getD position, position + 1)
      | depth + 1 => next depth
    else next depth

structure StringBody where
  expressions : List (List Char)
  length : Except Failure Nat

def StringBody.after (expressions : List (List Char)) (count : Nat) (b : StringBody) :
    StringBody :=
  ⟨expressions ++ b.expressions, b.length.map (· + count)⟩

/-- Reads a string from after its opening quotes; `more` characters are passed over. A string in
single quotes ends before the end of the line. -/
def readString (delimiter : List Char) (formatted : Bool) (more : Nat) : List Char → StringBody
  | [] => ⟨[], .ok 0⟩
  | c :: rest =>
    let continueAfter (more : Nat) : StringBody :=
      (readString delimiter formatted more rest).after [] 1
    if more ≠ 0 then continueAfter (more - 1)
    else if delimiter.isPrefixOf (c :: rest) then ⟨[], .ok delimiter.length⟩
    else if c = '\\' then continueAfter 1
    else if c = '\n' && delimiter.length = 1 then ⟨[], .ok 0⟩
    else if c = '\x7b' && formatted then
      if rest.head? == some '\x7b' then continueAfter 1
      else
        match fieldLengths 1 none 0 rest with
        | .error e => ⟨[], .error e⟩
        | .ok (expression, field) =>
          (readString delimiter formatted field rest).after [rest.take expression] 1
    else continueAfter 0

def delimiterOf (quote : Char) (rest : List Char) : List Char :=
  if [quote, quote].isPrefixOf rest then [quote, quote, quote] else [quote]

def expressionTokens (nested : List Token) : List Token :=
  [.opener .round] ++ nested.filter (· ≠ .lineEnd) ++ [.closer .round]

def stringTokens (nested : List Char → Except Failure (List Token)) (formatted : Bool) :
    List Char → Except Failure (List Token × Nat)
  | [] => .ok ([], 0)
  | quote :: rest => do
    let delimiter := delimiterOf quote rest
    let body := readString delimiter formatted 0 (rest.drop (delimiter.length - 1))
    let expressions ← body.expressions.mapM nested
    let length ← body.length
    pure (expressions.flatMap expressionTokens ++ [.literal], delimiter.length + length)

def symbolOf (c : Char) : Symbol :=
  if c = '.' then .dot
  else if c = ',' then .comma
  else if c = ';' then .semicolon
  else if c = ':' then .colon
  else if c = '=' then .assign
  else if c = '*' then .star
  else .other

structure State where
  before : List Token := []
  depth : Nat := 0

def State.push (s : State) (t : Token) : State := { s with before := t :: s.before }

/-- A line ends a statement outside brackets, unless nothing stands on it. -/
def State.endLine (s : State) : State :=
  match s.before with
  | [] => s
  | .lineEnd :: _ => s
  | _ => if s.depth = 0 then s.push .lineEnd else s

def State.sign (s : State) (c : Char) (rest : List Char) : State × Nat :=
  match longSigns.find? fun (sign, _) => sign.isPrefixOf (c :: rest) with
  | some (sign, symbol) => (s.push (.symbol symbol), sign.length - 1)
  | none =>
    match bracketToken? c with
    | some token => ({ s with depth := depthAfter s.depth token }.push token, 0)
    | none => (s.push (.symbol (symbolOf c)), 0)

def lexeme (nested : List Char → Except Failure (List Token)) (s : State) (c : Char)
    (rest : List Char) : Except Failure (State × Nat) :=
  if c = '\n' then .ok (s.endLine, 0)
  else if c = '\\' && rest.head? == some '\n' then .ok (s, 1)
  else if isBlank c then .ok (s, 0)
  else if c = '#' then .ok (s, countWhile (· ≠ '\n') rest)
  else
    match stringMark? 2 (c :: rest) with
    | some (letters, formatted) => do
      let (tokens, length) ← stringTokens nested formatted ((c :: rest).drop letters)
      pure ({ s with before := tokens.reverse ++ s.before }, letters + length - 1)
    | none =>
      if c.isDigit then .ok (s.push .literal, countWhile isNumberPart rest)
      else if isNameStart c then
        .ok (s.push (.name (String.ofList (c :: rest.takeWhile isNamePart))),
          countWhile isNamePart rest)
      else .ok (s.sign c rest)

def tokensWithin (limit : Nat) : (levels : Nat) → List Char → Except Failure (List Token)
  | 0, _ => .error (.fault (.nestedTooDeep limit))
  | levels + 1, s =>
    (scan (lexeme fun expression => tokensWithin limit levels expression) {} 0 s).map
      fun state => state.before.reverse

def tokens (limits : Limits) (s : List Char) : Except Failure (List Token) :=
  tokensWithin limits.maxNesting (limits.maxNesting + 1) s

/-- Whether a bracket after this token unpacks what is assigned; any other bracket subscripts or
calls. -/
def isTargetAfter : Option Token → Bool
  | none => true
  | some (.symbol .comma) => true
  | some (.symbol .star) => true
  | some (.opener .round) => true
  | some (.opener .square) => true
  | _ => false

def isAccess : Option Token → Bool
  | some (.symbol .dot) => true
  | some (.opener .square) => true
  | some (.opener .round) => true
  | _ => false

def isAfterDotOrColon : Option Token → Bool
  | some (.symbol .dot) => true
  | some (.symbol .colon) => true
  | _ => false

/-- The names that the targets of an assignment declare. `unpacking` tells of each open bracket
whether it unpacks. -/
def targetNames (unpacking : List Bool) (previous : Option Token) : List Token → List String
  | [] => []
  | t :: rest =>
    match t with
    | .opener .curly => targetNames unpacking (some t) rest
    | .closer .curly => targetNames unpacking (some t) rest
    | .opener _ => targetNames (isTargetAfter previous :: unpacking) (some t) rest
    | .closer _ => targetNames unpacking.tail (some t) rest
    | .name text =>
      let declares :=
        unpacking.all (·) && !isAccess rest.head? && !isAfterDotOrColon previous
      (if declares then [text] else []) ++ targetNames unpacking (some t) rest
    | _ => targetNames unpacking (some t) rest

def endsStatement (t : Token) : Bool := t = .lineEnd || t = .symbol .semicolon

def isCompound : Option Token → Bool
  | some (.name text) => compoundKeywords.contains text
  | _ => false

/-- The targets of an assignment, given the tokens before its sign, last one first. After the header
of a compound statement they begin behind its last colon. -/
def assignmentTargets (before : List Token) : List Token :=
  let statement := before.takeWhile (!endsStatement ·)
  if isCompound statement.getLast? then
    if statement.contains (.symbol .colon) then
      (statement.takeWhile (· ≠ .symbol .colon)).reverse
    else []
  else statement.reverse

def isParameterAfter : Option Token → Bool
  | some (.opener .round) => true
  | some (.symbol .comma) => true
  | some (.symbol .star) => true
  | some (.symbol .doubleStar) => true
  | _ => false

def parameterNames (atStart : Bool) (depth : Nat) (previous : Option Token) :
    List Token → List String
  | [] => []
  | t :: rest =>
    let here :=
      match t with
      | .name text => if depth ≤ 1 && (atStart || isParameterAfter previous) then [text] else []
      | _ => []
    here ++ parameterNames false (depthAfter depth t) (some t) rest

def definitionNames (isFunction : Bool) (after : List Token) : List String :=
  let name := (after.head?.bind Token.name?).toList
  let list := after.tail
  if isFunction && list.head? == some (.opener .round) then
    name ++ parameterNames true 0 none (list.take ((closeOffset 0 list).getD list.length))
  else name

def importNames (expecting : Bool) : List Token → List String
  | [] => []
  | t :: rest =>
    if endsStatement t then []
    else
      match t with
      | .symbol .comma => importNames true rest
      | .name text => (if expecting then [text] else []) ++ importNames false rest
      | .opener .round => importNames expecting rest
      | _ => importNames false rest

def namesBefore (word : String) (after : List Token) : List String :=
  if after.contains (.name word) then
    (after.takeWhile (· ≠ .name word)).filterMap Token.name?
  else []

def modulePathNames (after : List Token) : List String :=
  let path := after.takeWhile fun t => t ≠ .lineEnd && t ≠ .name "import"
  if after[path.length]? == some (.name "import") then path.filterMap Token.name? else []

def namesAtWord (text : String) (after : List Token) : List String :=
  if text = "def" || text = "class" then definitionNames (text = "def") after
  else if text = "lambda" then
    parameterNames true 0 none (after.takeWhile (· ≠ .symbol .colon))
  else if text = "for" then namesBefore "in" after
  else if text = "as" then (after.head?.bind Token.name?).toList
  else if text = "import" then importNames true after
  else if text = "from" then modulePathNames after
  else []

def declaredFrom (depth : Nat) (before : List Token) : List Token → List String
  | [] => []
  | t :: after =>
    let here :=
      match t with
      | .symbol .assign =>
        if depth = 0 then targetNames [] none (assignmentTargets before) else []
      | .symbol .walrus => (before.head?.bind Token.name?).toList
      | .name text => namesAtWord text after
      | _ => []
    here ++ declaredFrom (depthAfter depth t) (t :: before) after

def declared (tokens : List Token) : List String := declaredFrom 0 [] tokens

/-- Whether a name is read at its place, and not an attribute or the keyword of an argument. -/
def isRead (depth : Nat) (before after : List Token) : Bool :=
  before.head? != some (.symbol .dot) &&
    !(0 < depth && after.head? == some (.symbol .assign))

def readFrom (known : String → Bool) (depth : Nat) (before : List Token) :
    List Token → List String
  | [] => []
  | t :: after =>
    let here :=
      match t with
      | .name text => if !known text && isRead depth before after then [text] else []
      | _ => []
    here ++ readFrom known (depthAfter depth t) (t :: before) after

def isBuiltIn (text : String) : Bool := keywords.contains text || builtIns.contains text

def freeNamesOf (tokens : List Token) : List String :=
  let declared := declared tokens
  readFrom (fun text => isBuiltIn text || declared.contains text) 0 [] tokens

def freeNames (limits : Limits) (script : List Char) : Except Failure (List String) := do
  let tokens ← tokens limits script
  checkIdentifiers limits tokens
  pure (freeNamesOf tokens)

end BookCompiler.Script.Python
