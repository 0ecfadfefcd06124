import BookCompiler.Markdown.Fence

namespace BookCompiler.Markdown

open Text

def commentStart : List Char := ['<', '!', '-', '-']

def commentEnd : List Char := ['-', '-', '>']

def stripComments (inComment : Bool) (more : Nat) : List Char → List Char × Bool
  | [] => ([], inComment)
  | c :: rest =>
    if more ≠ 0 then stripComments inComment (more - 1) rest
    else if inComment then
      if commentEnd.isPrefixOf (c :: rest) then stripComments false 2 rest
      else stripComments true 0 rest
    else if commentStart.isPrefixOf (c :: rest) then stripComments true 3 rest
    else
      let (kept, inside) := stripComments false 0 rest
      (c :: kept, inside)

/-- What stays of a line, and whether a comment is open after it. A line with nothing but comments
goes; a line without any stays as it is. -/
def uncommentLine (inComment : Bool) (line : List Char) : Option (List Char) × Bool :=
  if !inComment && !contains commentStart line then (some line, false)
  else
    let (kept, inside) := stripComments inComment 0 line
    (if (trim kept).isEmpty then none else some (trimEnd kept), inside)

/-- Code blocks keep their lines, also while a comment is open. -/
def uncommentLines (inComment : Bool) : List (LineClass × List Char) → List (List Char)
  | [] => []
  | (c, line) :: rest =>
    if c = .outside then
      let (kept, inside) := uncommentLine inComment line
      kept.toList ++ uncommentLines inside rest
    else line :: uncommentLines inComment rest

def removeComments (s : List Char) : List Char :=
  joinLines (uncommentLines false (classifiedLines s))

end BookCompiler.Markdown
