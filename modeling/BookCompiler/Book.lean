import BookCompiler.Markdown.Body
import BookCompiler.Markdown.Section
import BookCompiler.Name.Words

namespace BookCompiler

open Markdown

structure BookHead where
  title : String
  description : Option String
  commandLines : List String
  deriving Repr, DecidableEq

structure BookSection where
  title : String
  name : String
  description : Option String
  content : String
  language : Option String
  result : Option String
  commandLines : List String
  deriving Repr, DecidableEq

/-- A book taken apart. The command lines are not read yet. -/
structure Book where
  head : BookHead
  sections : List BookSection
  source : String
  deriving Repr, DecidableEq

namespace Book

/-- Brings a text into the form of a book: without comments, with a head and sections of level
two. -/
def prepare (source : String) : Except ParseError String :=
  flatten (unwrapParameters (wrapFlat (removeComments source.toList)))

def headOf (s : Markdown.Section) : BookHead :=
  let body := Body.read s.content.toList
  { title := s.title, description := body.prose, commandLines := body.listItems }

def sectionOf (s : Markdown.Section) : Except ParseError BookSection :=
  let body := Body.read s.content.toList
  match body.content with
  | .error e => .error (.invalidSection s.title e)
  | .ok (content, language) =>
    .ok { title := s.title, name := Name.ofTitle s.title, description := body.description
          content, language, result := body.result, commandLines := body.listItems }

def read (source : String) : Except ParseError Book := do
  let text ← prepare source
  let sections ← sectionize text.toList
  let rest ← sections.rest.mapM sectionOf
  pure { head := headOf sections.head, sections := rest, source }

end Book

end BookCompiler
