import BookCompiler.Text.Alphabetic
import BookCompiler.Text.Blank

namespace BookCompiler.Assignments

/-- Where the reading of a line stands: between the parts of it, after a blank, inside quotes, or
after a backslash in one of these. -/
inductive LineState where
  | outside
  | blank
  | escape
  | single
  | singleEscape
  | double
  | doubleEscape
  deriving DecidableEq

namespace LineState

def opened : Char → LineState
  | '\\' => escape
  | '"' => double
  | '\'' => single
  | _ => outside

def next (state : LineState) (c : Char) : LineState :=
  match state with
  | outside => if Text.isBlank c && c ≠ '\n' && c ≠ '\r' then blank else opened c
  | blank => opened c
  | escape => outside
  | single => if c = '\\' then singleEscape else if c = '\'' then outside else single
  | singleEscape => single
  | double => if c = '\\' then doubleEscape else if c = '"' then outside else double
  | doubleEscape => double

end LineState

def fullLines : List Char → List (List Char)
  | [] => []
  | c :: s =>
    if c = '\n' then [c] :: fullLines s
    else
      match fullLines s with
      | [] => [[c]]
      | line :: rest => (c :: line) :: rest

/-- Reads one line, of which `read` is read already, last character first. A number sign after a
blank begins a comment, and only what stands before it is given back. -/
def scanLine (state : LineState) (read : List Char) : List Char → Except (List Char) LineState
  | [] => .ok state
  | c :: s =>
    if state = .blank && c = '#' then .error read.reverse
    else scanLine (state.next c) (c :: read) s

def withoutLineEnd (line : List Char) : List Char :=
  match line.reverse with
  | '\n' :: '\r' :: rest => rest.reverse
  | '\n' :: rest => rest.reverse
  | _ => line

/-- Joins the lines over which quotes reach, and drops comments. `before` is the part of a line that
is read already. What is not finished at the end is lost. -/
def joinedLines (state : LineState) (before : List Char) : List (List Char) → List (List Char)
  | [] => []
  | line :: rest =>
    let full := before ++ line
    if (Text.trimStart full).head? == some '#' then joinedLines .outside [] rest
    else
      match scanLine state [] line with
      | .error part => (before ++ part) :: joinedLines .outside [] rest
      | .ok .outside => withoutLineEnd full :: joinedLines .outside [] rest
      | .ok state => joinedLines state full rest

structure Reference where
  braced : Bool := false
  name : List Char := []

structure Value where
  quote : Option Char := none
  escaped : Bool := false
  ended : Bool := false
  reference : Option Reference := none
  text : List Char := []

namespace Value

def push (v : Value) (c : Char) : Value := { v with text := c :: v.text }

def resolve (valueOf : String → String) (v : Value) : Value :=
  match v.reference with
  | none => v
  | some r =>
    let value := (valueOf (String.ofList r.name.reverse)).toList
    { v with reference := none, text := value.reverse ++ v.text }

/-- A name in braces ends at the closing one, any other before the first character that is neither a
letter nor a numeral. -/
def refer (valueOf : String → String) (v : Value) (r : Reference) (c : Char) : Value :=
  if r.braced then
    if c = '\x7d' then v.resolve valueOf
    else { v with reference := some { r with name := c :: r.name } }
  else if Text.isLetterOrNumeral c then
    { v with reference := some { r with name := c :: r.name } }
  else if c = '\x7b' && r.name.isEmpty then { v with reference := some { r with braced := true } }
  else if c = '$' then { v.resolve valueOf with reference := some {} }
  else (v.resolve valueOf).push c

def plain (v : Value) (c : Char) : Value :=
  if c = '$' then { v with reference := some {} }
  else if c = '\\' then { v with escaped := true }
  else if v.quote = some '"' then if c = '"' then { v with quote := none } else v.push c
  else if c = '"' || c = '\'' then { v with quote := some c }
  else if c = ' ' || c = '\t' then { v with ended := true }
  else v.push c

def ofEscape? (c : Char) : Option Char :=
  if c = 'n' then some '\n'
  else if ['\\', '\'', '"', '$', ' '].contains c then some c
  else none

def finish (valueOf : String → String) (v : Value) : Option (List Char) :=
  if v.quote.isSome || v.reference.any Reference.braced then none
  else some (v.resolve valueOf).text.reverse

def read (valueOf : String → String) (v : Value) : List Char → Option (List Char)
  | [] => v.finish valueOf
  | c :: s =>
    if v.ended then
      if c = ' ' || c = '\t' then v.read valueOf s
      else if c = '#' then v.finish valueOf
      else none
    else if v.escaped then
      match ofEscape? c with
      | some c => ({ v with escaped := false }.push c).read valueOf s
      | none => none
    else if v.quote = some '\'' then
      (if c = '\'' then { v with quote := none } else v.push c).read valueOf s
    else
      match v.reference with
      | some r => (v.refer valueOf r c).read valueOf s
      | none => (v.plain c).read valueOf s

end Value

def nameSpan? (s : List Char) : Option (List Char × List Char) :=
  let isName (c : Char) : Bool := c.isAlphanum || c = '_' || c = '.'
  if s.head?.any fun c => c.isAlpha || c = '_' then
    some (s.takeWhile isName, Text.trimStart (s.dropWhile isName))
  else none

def sides? (s : List Char) : Option (String × List Char) := do
  let (name, rest) ← nameSpan? s
  match rest with
  | '=' :: value => some (String.ofList name, value)
  | rest =>
    if String.ofList name = "export" then
      let (name, rest) ← nameSpan? rest
      match rest with
      | '=' :: value => some (String.ofList name, value)
      | _ => none
    else none

def assign? (known : List (String × String)) (line : List Char) :
    Option (List (String × String)) :=
  let line := Text.trimStart (Text.trimEnd line)
  if line.isEmpty || line.head? == some '#' then some known
  else do
    let (name, value) ← sides? line
    let value := Text.trimStart value
    let text ←
      if value.isEmpty || value.head? == some '#' then some []
      else Value.read (fun name => (known.lookup name).getD "") {} value
    if (known.lookup name).isSome then some known
    else some (known ++ [(name, String.ofList text)])

def assignAll (known : List (String × String)) : List (List Char) → List (String × String)
  | [] => known
  | line :: rest =>
    match assign? known line with
    | some known => assignAll known rest
    | none => known

def load (known : List (String × String)) (text : String) : List (String × String) :=
  let text := match text.toList with
    | '\ufeff' :: rest => rest
    | other => other
  assignAll known (joinedLines .outside [] (fullLines text))

end BookCompiler.Assignments
