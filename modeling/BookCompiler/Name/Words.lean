import BookCompiler.Text.Accent

namespace BookCompiler.Name

open Text

/-- Words of ASCII letters and digits. A capital that follows a small letter or a digit begins a
new word; `current` is the word being read, last character first. -/
def wordsFrom (current : List Char) (afterSmall : Bool) : List Char → List (List Char)
  | [] => if current.isEmpty then [] else [current.reverse]
  | c :: s =>
    if c.isAlphanum then
      if c.isUpper && afterSmall && !current.isEmpty then
        current.reverse :: wordsFrom [c] false s
      else
        wordsFrom (c :: current) (c.isLower || c.isDigit) s
    else if current.isEmpty then wordsFrom [] false s
    else current.reverse :: wordsFrom [] false s

def splitWords (s : List Char) : List (List Char) := wordsFrom [] false (foldAccents s)

def screamingChars (s : List Char) : List Char :=
  List.intercalate ['_'] ((splitWords s).map (·.map Char.toUpper))

def kebabChars (s : List Char) : List Char :=
  List.intercalate ['-'] ((splitWords s).map (·.map Char.toLower))

def screaming (s : String) : String := String.ofList (screamingChars s.toList)

def kebab (s : String) : String := String.ofList (kebabChars s.toList)

def ofTitle (title : String) : String :=
  let name := kebab title
  if name.isEmpty then "untitled" else name

def isIdentifierStart (c : Char) : Bool := c.isAlpha || c = '_' || c = '$'

def isIdentifier (s : String) : Bool :=
  match s.toList with
  | [] => false
  | c :: rest => isIdentifierStart c && rest.all fun d => isIdentifierStart d || d.isDigit

end BookCompiler.Name
