import BookCompiler.Text.Blank

namespace BookCompiler

inductive FileFault where
  | missing
  | isDirectory
  | notDirectory
  | nameTooLong
  | nulCharacter
  deriving Repr, DecidableEq

def FileFault.message : FileFault → String
  | missing => "No such file or directory (os error 2)"
  | isDirectory => "Is a directory (os error 21)"
  | notDirectory => "Not a directory (os error 20)"
  | nameTooLong => "File name too long (os error 36)"
  | nulCharacter => "file name contained an unexpected NUL byte"

structure Shelf where
  files : List (List String × String) := []
  deriving Repr, DecidableEq

namespace Shelf

inductive Entry where
  | directory
  | file (text : String)

/-- Where a path leads: to a place in the directory, to one of the directories around it, or to a
place below the root of the system. -/
inductive Spot where
  | inside (path : List String)
  | around
  | system (path : List String)

def parts (path : String) : List String :=
  ((Text.split (· = '/') path.toList).map String.ofList).filter fun part =>
    part ≠ "" && part ≠ "."

def ofList (files : List (String × String)) : Shelf :=
  ⟨files.map fun (path, text) => (parts path, text)⟩

def isDirectory (s : Shelf) (path : List String) : Bool :=
  path.isEmpty || s.files.any fun (p, _) => path.isPrefixOf p && path ≠ p

def systemDirectories : List String := ["bin", "dev", "etc", "lib", "tmp", "usr", "var"]

/-- Nothing is known of a system but its directories and the file that is always empty. -/
def systemEntry? : List String → Option Entry
  | [] => some .directory
  | [name] => if systemDirectories.contains name then some .directory else none
  | path => if path = ["dev", "null"] then some (.file "") else none

def entry? (s : Shelf) : Spot → Option Entry
  | .inside path =>
    if s.isDirectory path then some .directory else (s.files.lookup path).map .file
  | .around => some .directory
  | .system path => systemEntry? path

def Spot.step? : Spot → String → Option Spot
  | .inside path, part =>
    if part ≠ ".." then some (.inside (path ++ [part]))
    else if path.isEmpty then some .around
    else some (.inside path.dropLast)
  | .around, part => if part = ".." then some .around else none
  | .system path, part => some (.system (if part = ".." then path.dropLast else path ++ [part]))

def maxPart : Nat := 255

def maxPath : Nat := 4095

def walk (s : Shelf) (here : Spot) : List String → Except FileFault Spot
  | [] => .ok here
  | part :: rest =>
    match s.entry? here with
    | none => .error .missing
    | some (.file _) => .error .notDirectory
    | some .directory =>
      if maxPart < part.utf8ByteSize then .error .nameTooLong
      else
        match here.step? part with
        | none => .error .missing
        | some next => s.walk next rest

def read (s : Shelf) (path : String) : Except FileFault String :=
  if path.toList.contains '\x00' then .error .nulCharacter
  else if path.isEmpty then .error .missing
  else if maxPath < path.utf8ByteSize then .error .nameTooLong
  else
    match s.walk (if path.startsWith "/" then .system [] else .inside []) (parts path) with
    | .error fault => .error fault
    | .ok spot =>
      match s.entry? spot with
      | none => .error .missing
      | some .directory => .error .isDirectory
      | some (.file text) =>
        if path.endsWith "/" || path.endsWith "/." then .error .notDirectory else .ok text

end Shelf

end BookCompiler
