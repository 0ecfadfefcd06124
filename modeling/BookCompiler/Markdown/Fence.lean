import BookCompiler.Text.Blank

namespace BookCompiler.Markdown

open Text

structure Fence where
  marker : Char
  length : Nat
  deriving Repr, DecidableEq

namespace Fence

def leastLength : Nat := 3

def isMarker (c : Char) : Bool := c = '\x60' || c = '~'

def open? (line : List Char) : Option Fence :=
  match trimStart line with
  | [] => none
  | c :: rest =>
    let length := (rest.takeWhile (· = c)).length + 1
    if isMarker c && leastLength ≤ length then some ⟨c, length⟩ else none

/-- A fence is closed by a bare run of its marker that is at least as long. -/
def isClosedBy (f : Fence) (line : List Char) : Bool :=
  let text := trim line
  text.all (· = f.marker) && f.length ≤ text.length

def info (f : Fence) (line : List Char) : List Char := trim ((trim line).dropWhile (· = f.marker))

end Fence

inductive LineClass where
  | opens (fence : Fence)
  | closes
  | inside
  | outside
  deriving Repr, DecidableEq

def classify (fence : Option Fence) (line : List Char) : LineClass :=
  match fence with
  | some f => if f.isClosedBy line then .closes else .inside
  | none =>
    match Fence.open? line with
    | some f => .opens f
    | none => .outside

def LineClass.fenceAfter (fence : Option Fence) : LineClass → Option Fence
  | opens f => some f
  | closes => none
  | inside => fence
  | outside => fence

def classifyFrom (fence : Option Fence) : List (List Char) → List (LineClass × List Char)
  | [] => []
  | line :: rest =>
    let c := classify fence line
    (c, line) :: classifyFrom (c.fenceAfter fence) rest

def classifiedLines (s : List Char) : List (LineClass × List Char) := classifyFrom none (lines s)

def outsideLines (s : List Char) : List (List Char) :=
  (classifiedLines s).filterMap fun (c, line) => if c = .outside then some line else none

end BookCompiler.Markdown
