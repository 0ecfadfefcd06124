import BookCompiler.Command.Error
import BookCompiler.Markdown.Comment
import BookCompiler.Markdown.Return

namespace BookCompiler.Markdown

open Text

structure Section where
  title : String
  level : Nat
  content : String
  deriving Repr, DecidableEq

def untitled : List Char := "Untitled".toList

def deepestHeading : Nat := 6

def headingLevel? (line : List Char) : Option Nat :=
  let text := trim line
  let level := (text.takeWhile (· = '#')).length
  let isHeading :=
    match text.drop level with
    | [] => true
    | c :: _ => isBlank c
  if level ≠ 0 && level ≤ deepestHeading && isHeading then some level else none

inductive ScanState where
  | markdown
  | code (fence : Fence)
  | comment
  deriving Repr, DecidableEq

/-- The state after a line, and whether the line begins a section. -/
def ScanState.step (state : ScanState) (line : List Char) : ScanState × Bool :=
  match state with
  | markdown =>
    match Fence.open? line with
    | some f => (code f, false)
    | none =>
      let text := trim line
      if commentStart.isPrefixOf text && !contains commentEnd text then (comment, false)
      else (markdown, (headingLevel? text).isSome)
  | code f => (if f.isClosedBy line then markdown else code f, false)
  | comment => (if contains commentEnd (trim line) then markdown else comment, false)

def cutAtHeadings (state : ScanState) :
    List (List Char) → List (List Char) × List (List (List Char))
  | [] => ([], [])
  | line :: rest =>
    let (next, isHeading) := state.step line
    let (before, groups) := cutAtHeadings next rest
    if isHeading then ([], (line :: before) :: groups) else (line :: before, groups)

/-- The text of a section. Text without a heading gets one; nothing is no section. -/
def sectionText? (group : List (List Char)) : Option (List Char) :=
  match trim (joinLines group) with
  | [] => none
  | c :: text =>
    if c = '#' then some (c :: text)
    else some ("# ".toList ++ untitled ++ ['\n', '\n'] ++ c :: text)

def splitSections (s : List Char) : List (List Char) :=
  let (before, groups) := cutAtHeadings .markdown (lines s)
  (before :: groups).filterMap sectionText?

def readSection (text : List Char) : Except ParseError Section :=
  let text := trim text
  let (heading, content) := (splitOnce (· = '\n') text).getD (text, [])
  match headingLevel? heading with
  | none => .error (.structural (.noHeading (String.ofList text)))
  | some level =>
    .ok { title := String.ofList (trim ((trim heading).drop level)), level
          content := String.ofList (trim content) }

def Section.write (signs : String) (s : Section) : String :=
  if s.content.isEmpty then signs ++ " " ++ s.title
  else signs ++ " " ++ s.title ++ "\n\n" ++ s.content

def writeFlat : List Section → String
  | [] => ""
  | head :: rest => String.intercalate "\n\n" (head.write "#" :: rest.map (Section.write "##"))

def flatten (s : List Char) : Except ParseError String :=
  ((splitSections s).mapM readSection).map writeFlat

structure Sections where
  head : Section
  rest : List Section
  deriving Repr, DecidableEq

/-- The sections of a book, whose head has level one and all others level two. -/
def sectionize (s : List Char) : Except ParseError Sections := do
  match ← (splitSections s).mapM readSection with
  | [] => .error (.structural .emptyBook)
  | head :: rest =>
    if head.level ≠ 1 then .error (.structural (.headLevel head.level head.title))
    else
      match rest.find? fun t => t.level ≠ 2 with
      | some t => .error (.structural (.sectionLevel t.level t.title))
      | none => .ok ⟨head, rest⟩

def isFlat (s : List Char) : Bool :=
  let text := trim s
  text.head? != some '#' &&
    !(outsideLines text).any (fun line => (headingLevel? line).isSome) &&
    (lines text).getLast?.any isReturnLine

def quotePrompt (prompt : List Char) : List Char :=
  if (lines prompt).length ≤ 1 then ['>', ' '] ++ prompt
  else "```\n".toList ++ prompt ++ "\n```".toList

/-- Makes a book with a single section of a bare prompt. -/
def wrapFlat (s : List Char) : List Char :=
  if isFlat s then
    let ls := lines (trim s)
    let prompt := trim (joinLines ls.dropLast)
    "# ".toList ++ untitled ++ "\n\n## Prompt\n\n".toList ++ quotePrompt prompt ++
      ['\n', '\n'] ++ trim (ls.getLast?.getD [])
  else s

end BookCompiler.Markdown
