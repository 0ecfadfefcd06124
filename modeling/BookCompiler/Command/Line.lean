import BookCompiler.Command.Error
import BookCompiler.Name.Words

namespace BookCompiler

open Text

def canonicalWord (word : String) : String :=
  if word = "EXAMPLE" then "SAMPLE"
  else if word = "DIALOGUE" then "DIALOG"
  else if word = "EXECUTE" || word = "BLOCK" || word = "TEMPLATE" then "SECTION"
  else word

def commandWords (s : List Char) : List String :=
  (Name.splitWords s).map fun word => canonicalWord (String.ofList (word.map Char.toUpper))

def commandText (s : List Char) : String := String.intercalate "_" (commandWords s)

/-- Where the name of a command stands: the first words of the line or the last one. -/
inductive NamePosition where
  | leading (count : Nat)
  | trailing
  deriving Repr, DecidableEq

structure Candidate where
  name : String
  position : NamePosition
  deriving Repr, DecidableEq

/-- A command line with the name taken out. -/
structure Invocation where
  words : List String
  arguments : List String
  text : String
  deriving Repr, DecidableEq

def longestName : Nat := 3

def isMark (c : Char) : Bool := c = '\x60' || c = '"' || c = '\'' || c = '*'

def bareArgument (word : List Char) : List Char := trimMatching isMark word

def afterWords : Nat → List Char → List Char
  | 0, s => trimStart s
  | n + 1, s => afterWords n ((trimStart s).dropWhile (!isBlank ·))

def beforeLastWord (s : List Char) : List Char := trim (dropEndWhile (!isBlank ·) s)

structure CommandLine where
  raw : List Char
  deriving Repr, DecidableEq

namespace CommandLine

def read (line : String) : Except ParseError CommandLine :=
  let raw := trim line.toList
  if raw.contains '\n' || raw.contains '\r' then .error (.multiline (String.ofList raw))
  else .ok ⟨raw⟩

def text (line : CommandLine) : String := String.ofList line.raw

def normalized (line : CommandLine) : String := commandText line.raw

def words (line : CommandLine) : List (List Char) := Text.words line.raw

def leadingName (line : CommandLine) (count : Nat) : Candidate :=
  ⟨commandText (List.intercalate [' '] (line.words.take count)), .leading count⟩

/-- The possible names of the command: the first words, most words first, then the last word. -/
def candidates (line : CommandLine) : List Candidate :=
  let words := line.words
  let leading := (List.range (min longestName words.length)).reverse.map fun i =>
    line.leadingName (i + 1)
  let trailing :=
    match words.getLast? with
    | some last => if 1 < words.length then [⟨commandText last, .trailing⟩] else []
    | none => []
  (leading ++ trailing).filter fun candidate => candidate.name ≠ ""

def invocation (line : CommandLine) (position : NamePosition) : Invocation :=
  let (beside, text) :=
    match position with
    | .leading count => (line.words.drop count, afterWords count line.raw)
    | .trailing => (line.words.dropLast, beforeLastWord line.raw)
  { words := commandWords line.raw
    arguments := ((beside.map bareArgument).filter (!·.isEmpty)).map String.ofList
    text := String.ofList text }

end CommandLine

end BookCompiler
