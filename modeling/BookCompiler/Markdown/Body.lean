import BookCompiler.Command.Error
import BookCompiler.Markdown.Return
import BookCompiler.Text.Alphabetic
import BookCompiler.Text.Case

namespace BookCompiler.Markdown

open Text

structure CodeBlock where
  language : Option String
  content : String
  deriving Repr, DecidableEq

def isBullet (c : Char) : Bool := c = '-' || c = '*' || c = '+'

def afterListMarker? (s : List Char) : Option (List Char) :=
  match s with
  | [] => none
  | c :: rest =>
    if isBullet c then some rest
    else if isDecimalDigit c then
      match rest.dropWhile isDecimalDigit with
      | '.' :: rest => some rest
      | ')' :: rest => some rest
      | _ => none
    else none

def listItem? (line : List Char) : Option (List Char) := do
  let rest ← afterListMarker? (trimStart line)
  match rest with
  | [] => none
  | c :: _ =>
    let text := trimStart rest
    if !isBlank c || text.isEmpty || text.contains '\n' then none else some (trimEnd text)

def listItems (s : List Char) : List String :=
  ((outsideLines s).filterMap listItem?).map String.ofList

def blockLanguage (f : Fence) (line : List Char) : Option String :=
  (words (f.info line)).head?.map fun word => String.ofList (lower word)

def codeBlocksIn : List (LineClass × List Char) → List CodeBlock
  | [] => []
  | (.opens f, line) :: rest =>
    let content := (rest.takeWhile fun (c, _) => c = .inside).map Prod.snd
    ⟨blockLanguage f line, String.ofList (joinLines content)⟩ :: codeBlocksIn rest
  | _ :: rest => codeBlocksIn rest

/-- The code blocks of a text. A block that nothing closes goes to the end. -/
def codeBlocks (s : List Char) : List CodeBlock := codeBlocksIn (classifiedLines s)

def oneCodeBlock (s : List Char) : Except ParseError CodeBlock :=
  match codeBlocks s with
  | [block] => .ok block
  | blocks => .error (.invalidValue (.codeBlockCount blocks.length))

def quotedText? (line : List Char) : Option (List Char) :=
  match trimStart line with
  | '>' :: ' ' :: rest => some rest
  | '>' :: rest => some rest
  | _ => none

def textOfLines? (ls : List (List Char)) : Option String :=
  match trim (joinLines ls) with
  | [] => none
  | text => some (String.ofList text)

def quotation? (s : List Char) : Option String :=
  textOfLines? ((outsideLines s).filterMap quotedText?)

def isArrowLine (line : List Char) : Bool := ['-', '>'].isPrefixOf (trimStart line)

structure Body where
  prose : Option String
  codeBlocks : List CodeBlock
  quotation : Option String
  listItems : List String
  result : Option String
  deriving Repr, DecidableEq

def plainLines (s : List Char) : List (List Char) :=
  (outsideLines s).filter fun line => (listItem? line).isNone && (quotedText? line).isNone

/-- Takes a text apart. Of several results the last one counts. -/
def Body.read (s : List Char) : Body :=
  let plain := plainLines s
  { prose := textOfLines? (plain.filter (!isArrowLine ·))
    codeBlocks := Markdown.codeBlocks s
    quotation := quotation? s
    listItems := Markdown.listItems s
    result := ((plain.filterMap returnName?).getLast?).map String.ofList }

/-- The content of a section and its language: the code block if there is one, else the quotation,
else the prose. -/
def Body.content (b : Body) : Except ParseError (String × Option String) :=
  match b.codeBlocks, b.quotation with
  | [], some text => .ok (text, none)
  | [], none => .ok (b.prose.getD "", none)
  | [block], _ => .ok (trimmed block.content, block.language)
  | blocks, _ => .error (.invalidValue (.manyCodeBlocks blocks.length))

def Body.description (b : Body) : Option String :=
  if b.codeBlocks.isEmpty && b.quotation.isNone then none else b.prose

end BookCompiler.Markdown
