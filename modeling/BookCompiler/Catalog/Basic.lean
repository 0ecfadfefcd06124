import BookCompiler.Catalog.Shelf
import BookCompiler.Compile.Error
import BookCompiler.Draft.Basic
import BookCompiler.Name.Reference
import BookCompiler.Pipeline.Basic

namespace BookCompiler

inductive CatalogError where
  | compilation (error : CompileError)
  | book (name : String) (error : CompileError)
  | file (path : String) (fault : FileFault)
  | duplicateUrl (url first second : String)
  deriving Repr, DecidableEq

def CatalogError.message : CatalogError → String
  | compilation error => "Compiler error: " ++ error.message
  | book name error => s!"Failed to compile book {name}: " ++ error.message
  | file path fault => s!"Failed to read book file {path}: " ++ fault.message
  | duplicateUrl url first second =>
    s!"Pipeline URL {url} is used by both \"{first}\" and \"{second}\""

/-- Pipelines in the order in which they were added, with the positions of their addresses and
titles. -/
structure Catalog where
  pipelines : List Pipeline := []
  byUrl : List (String × Nat) := []
  byTitle : List (String × Nat) := []
  deriving Repr, DecidableEq

namespace Catalog

def getByUrl (c : Catalog) (url : String) : Option Pipeline :=
  (c.byUrl.lookup url).bind fun i => c.pipelines[i]?

def getByTitle (c : Catalog) (title : String) : Option Pipeline :=
  (c.byTitle.lookup title).bind fun i => c.pipelines[i]?

def get (c : Catalog) (key : String) : Option Pipeline :=
  (c.getByUrl key).or (c.getByTitle key)

def size (c : Catalog) : Nat := c.pipelines.length

def isEmpty (c : Catalog) : Bool := c.pipelines.isEmpty

def titles (c : Catalog) : List String := c.pipelines.map Pipeline.title

def urls (c : Catalog) : List String := Name.sorted (c.byUrl.map Prod.fst)

def noteUrl (c : Catalog) (p : Pipeline) : Attempt CatalogError Catalog :=
  match p.url with
  | none => .done c
  | some url =>
    match c.getByUrl url with
    | some first => .refused c (.duplicateUrl url first.title p.title)
    | none => .done { c with byUrl := c.byUrl ++ [(url, c.pipelines.length)] }

/-- Notes the title of the pipeline that comes next. Of several pipelines with one title the first
is found by it. -/
def noteTitle (c : Catalog) (p : Pipeline) : Catalog :=
  if (c.byTitle.lookup p.title).isSome then c
  else { c with byTitle := c.byTitle ++ [(p.title, c.pipelines.length)] }

def offer (c : Catalog) (p : Pipeline) : Attempt CatalogError Catalog :=
  let noted := c.noteUrl p
  match noted.refusal with
  | some _ => noted
  | none =>
    let c := noted.draft.noteTitle p
    .done { c with pipelines := c.pipelines ++ [p] }

def insert (c : Catalog) (p : Pipeline) : Except CatalogError Catalog :=
  let a := c.offer p
  match a.refusal with
  | some e => .error e
  | none => .ok a.draft

end Catalog

end BookCompiler
