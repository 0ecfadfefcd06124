import BookCompiler.Text.Blank
import BookCompiler.Text.Case

namespace BookCompiler

namespace Script

inductive Language where
  | javascript
  | typescript
  | python
  deriving Repr, DecidableEq

namespace Language

def all : List Language := [javascript, typescript, python]

def name : Language → String
  | javascript => "javascript"
  | typescript => "typescript"
  | python => "python"

def shortTag : Language → String
  | javascript => "js"
  | typescript => "ts"
  | python => "py"

def ofTag? (tag : String) : Option Language :=
  let word := String.ofList (Text.lower (Text.trim tag.toList))
  all.find? fun language => word = language.name || word = language.shortTag

end Language

structure Limits where
  maxIdentifiers : Nat := 256
  maxNesting : Nat := 32
  deriving Repr, DecidableEq

inductive Fault where
  | noLanguage (title : String)
  | unsupportedLanguage (tag : String)
  | tooManyIdentifiers (found limit : Nat)
  | nestedTooDeep (limit : Nat)
  | openReplacementField
  | openTemplate
  | openTemplateExpression
  deriving Repr, DecidableEq

def Fault.message : Fault → String
  | noLanguage title => s!"Script of the task \"{title}\" has no language"
  | unsupportedLanguage tag => s!"Script language \"{tag}\" is not supported"
  | tooManyIdentifiers found limit =>
    s!"Script has {found} distinct identifiers, the analysis is limited to {limit}"
  | nestedTooDeep limit => s!"Script nests expressions deeper than {limit} levels"
  | openReplacementField => "Replacement field of an f-string is not terminated"
  | openTemplate => "Template literal is not terminated"
  | openTemplateExpression => "Template literal expression is not terminated"

/-- How an analysis ends without names: it refuses the script, or it crashes where a counter of open
brackets would go below zero. -/
inductive Failure where
  | fault (fault : Fault)
  | crash
  deriving Repr, DecidableEq

inductive Bracket where
  | round
  | square
  | curly
  deriving Repr, DecidableEq

/-- Signs that the analysis tells apart. All others are one. -/
inductive Symbol where
  | dot
  | optionalDot
  | comma
  | colon
  | semicolon
  | assign
  | walrus
  | arrow
  | spread
  | star
  | doubleStar
  | other
  deriving Repr, DecidableEq

inductive Token where
  | name (text : String)
  | opener (shape : Bracket)
  | closer (shape : Bracket)
  | symbol (sign : Symbol)
  | literal
  | lineEnd
  deriving Repr, DecidableEq

namespace Token

def name? : Token → Option String
  | name text => some text
  | _ => none

def isOpener : Token → Bool
  | opener _ => true
  | _ => false

def isCloser : Token → Bool
  | closer _ => true
  | _ => false

end Token

def bracketToken? (c : Char) : Option Token :=
  if c = '(' then some (.opener .round)
  else if c = ')' then some (.closer .round)
  else if c = '[' then some (.opener .square)
  else if c = ']' then some (.closer .square)
  else if c = '\x7b' then some (.opener .curly)
  else if c = '\x7d' then some (.closer .curly)
  else none

/-- How deep in brackets the text stands after a token; a closer too many is passed over. -/
def depthAfter (depth : Nat) : Token → Nat
  | .opener _ => depth + 1
  | .closer _ => depth - 1
  | _ => depth

def closeOffset (depth : Nat) : List Token → Option Nat
  | [] => none
  | t :: rest =>
    if t.isCloser && depth - 1 = 0 then some 0
    else (closeOffset (depthAfter depth t) rest).map (· + 1)

def openOffset (depth : Nat) : List Token → Option Nat
  | [] => none
  | t :: rest =>
    if t.isOpener && depth - 1 = 0 then some 0
    else
      let depth :=
        match t with
        | .closer _ => depth + 1
        | .opener _ => depth - 1
        | _ => depth
      (openOffset depth rest).map (· + 1)

def matchingClose (tokens : List Token) (start : Nat) : Option Nat :=
  (closeOffset 0 (tokens.drop start)).map (start + ·)

def matchingOpen (tokens : List Token) (stop : Nat) : Option Nat :=
  (openOffset 0 (tokens.take (stop + 1)).reverse).map (stop - ·)

/-- Reads a text lexeme by lexeme. A lexeme is given the state, its first character and the text
after it, and tells how many further characters belong to it. -/
def scan {σ : Type} (lexeme : σ → Char → List Char → Except Failure (σ × Nat)) (state : σ) :
    (more : Nat) → List Char → Except Failure σ
  | _, [] => .ok state
  | more + 1, _ :: rest => scan lexeme state more rest
  | 0, c :: rest => do
    let (state, more) ← lexeme state c rest
    scan lexeme state more rest

def countWhile (p : Char → Bool) (s : List Char) : Nat := (s.takeWhile p).length

def distinctNames (tokens : List Token) : List String := (tokens.filterMap Token.name?).eraseDups

def checkIdentifiers (limits : Limits) (tokens : List Token) : Except Failure Unit :=
  let found := (distinctNames tokens).length
  if limits.maxIdentifiers < found then .error (.fault (.tooManyIdentifiers found limits.maxIdentifiers))
  else .ok ()

end Script

end BookCompiler
