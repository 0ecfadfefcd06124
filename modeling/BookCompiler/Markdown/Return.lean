import BookCompiler.Markdown.Fence
import BookCompiler.Name.Reference

namespace BookCompiler.Markdown

open Text

def bracedName? : List Char → Option (List Char × List Char)
  | '\x7b' :: s =>
    match s.takeWhile Name.isWordChar, s.dropWhile Name.isWordChar with
    | c :: name, '\x7d' :: rest => some (c :: name, rest)
    | _, _ => none
  | _ => none

def returnMarker? : List Char → Option (List Char × List Char)
  | '-' :: '>' :: s => bracedName? (trimStart s)
  | _ => none

def returnName? (line : List Char) : Option (List Char) :=
  (returnMarker? (trim line)).map Prod.fst

def isReturnLine (line : List Char) : Bool :=
  match returnMarker? (trim line) with
  | some (_, rest) => (trim rest).isEmpty
  | none => false

def bracedChars (name : List Char) : List Char := '\x7b' :: name ++ ['\x7d']

def returnChars (name : List Char) : List Char := ['-', '>', ' '] ++ bracedChars name

def ticked? (read : List Char → Option (List Char × List Char)) :
    List Char → Option (List Char × List Char)
  | '\x60' :: s =>
    match read s with
    | some (name, '\x60' :: rest) => some (name, rest)
    | _ => none
  | _ => none

/-- Replaces each occurrence that `find?` sees, from left to right; `more` characters are passed
over. -/
def replaceAll (find? : List Char → Option (List Char × List Char))
    (write : List Char → List Char) (more : Nat) : List Char → List Char
  | [] => []
  | c :: s =>
    if more ≠ 0 then replaceAll find? write (more - 1) s
    else
      match find? (c :: s) with
      | some (name, rest) => write name ++ replaceAll find? write (s.length - rest.length) s
      | none => c :: replaceAll find? write 0 s

/-- Takes the backticks from around a result, then from around a parameter. -/
def unwrapLine (line : List Char) : List Char :=
  replaceAll (ticked? bracedName?) bracedChars 0
    (replaceAll (ticked? returnMarker?) returnChars 0 line)

def unwrapParameters (s : List Char) : List Char :=
  joinLines ((classifiedLines s).map fun (c, line) =>
    if c = .outside then unwrapLine line else line)

end BookCompiler.Markdown
