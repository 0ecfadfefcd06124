import BookCompiler.Decimal.Reader
import BookCompiler.Text.Blank
import BookCompiler.Text.Quoted

namespace BookCompiler.Version

open Text

inductive Part where
  | major
  | minor
  | patch
  | preRelease
  | build
  deriving Repr, DecidableEq

def Part.name : Part → String
  | major => "major version number"
  | minor => "minor version number"
  | patch => "patch version number"
  | preRelease => "pre-release identifier"
  | build => "build metadata"

inductive Fault where
  | empty
  | unexpectedEnd (part : Part)
  | unexpected (part : Part) (c : Char)
  | unexpectedAfter (part : Part) (c : Char)
  | leadingZero (part : Part)
  | tooLarge (part : Part)
  | emptySegment (part : Part)
  deriving Repr, DecidableEq

def Fault.message : Fault → String
  | empty => "empty string, expected a semver version"
  | unexpectedEnd part => "unexpected end of input while parsing " ++ part.name
  | unexpected part c => "unexpected character " ++ quotedChar c ++ " while parsing " ++ part.name
  | unexpectedAfter part c => "unexpected character " ++ quotedChar c ++ " after " ++ part.name
  | leadingZero part => "invalid leading zero in " ++ part.name
  | tooLarge part => "value of " ++ part.name ++ " exceeds u64::MAX"
  | emptySegment part => "empty identifier segment in " ++ part.name

def number (part : Part) (s : List Char) : Except Fault (List Char) :=
  match Decimal.digitSpan s with
  | ([], []) => .error (.unexpectedEnd part)
  | ([], c :: _) => .error (.unexpected part c)
  | ('0' :: _ :: _, _) => .error (.leadingZero part)
  | (digits, rest) =>
    if UInt64.size ≤ Decimal.valueOfDigits digits then .error (.tooLarge part) else .ok rest

def dot (part : Part) : List Char → Except Fault (List Char)
  | '.' :: rest => .ok rest
  | c :: _ => .error (.unexpectedAfter part c)
  | [] => .error (.unexpectedEnd part)

def isIdentifierChar (c : Char) : Bool := c.isAlphanum || c = '-'

def segmentFault (part : Part) (segment : List Char) : Option Fault :=
  if segment.isEmpty then some (.emptySegment part)
  else if part = .preRelease && 1 < segment.length && segment.all Char.isDigit &&
      segment.head? == some '0' then some (.leadingZero part)
  else none

def identifiers (part : Part) (s : List Char) : Except Fault (List Char) :=
  let inside (c : Char) : Bool := isIdentifierChar c || c = '.'
  match (split (· = '.') (s.takeWhile inside)).findSome? (segmentFault part) with
  | some fault => .error fault
  | none => .ok (s.dropWhile inside)

/-- Accepts exactly the semantic versions. -/
def check (s : List Char) : Except Fault Unit := do
  if s.isEmpty then throw .empty
  let s ← dot .major (← number .major s)
  let s ← dot .minor (← number .minor s)
  let s ← number .patch s
  let (part, s) ←
    match s with
    | '-' :: rest => do pure (Part.preRelease, ← identifiers .preRelease rest)
    | _ => pure (Part.patch, s)
  let (part, s) ←
    match s with
    | '+' :: rest => do pure (Part.build, ← identifiers .build rest)
    | _ => pure (part, s)
  match s with
  | [] => pure ()
  | c :: _ => throw (.unexpectedAfter part c)

end BookCompiler.Version
