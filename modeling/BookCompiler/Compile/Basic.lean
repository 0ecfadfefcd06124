import BookCompiler.Compile.Abstraction
import BookCompiler.Compile.Assembly
import BookCompiler.Compile.Logic
import BookCompiler.Compile.Options
import BookCompiler.Compile.Roles

namespace BookCompiler

/-- The result of a compilation, and the notices on the book. -/
structure Compilation where
  result : Except CompileError Pipeline
  notices : List Notice

def PipelineDraft.finish (options : Options) (d : PipelineDraft) : Pipeline :=
  let p := d.resolveRoles.build
  let p := if options.abstractions then p.applyAbstractions else p
  { p with formfactor := some p.formfactorName }

def Options.check (options : Options) (p : Pipeline) : Except CompileError Pipeline :=
  if options.validation then
    match p.validate with
    | .error e => .error ((CompileError.logic e).within p.url)
    | .ok () => .ok p
  else .ok p

namespace Book

def compile (options : Options) (book : Book) : Compilation :=
  let a := book.assemble options.limits
  { notices := a.notices
    result :=
      match a.refusal with
      | some e => .error (e.within a.draft.url)
      | none => options.check (a.draft.finish options) }

end Book

def compile (options : Options) (source : String) : Compilation :=
  match Book.read source with
  | .error e => { result := .error (.unreadable e), notices := [] }
  | .ok book => book.compile options

def Pipeline.atPath (p : Pipeline) (path : String) : Pipeline :=
  match p.sources with
  | [] => p
  | source :: rest => { p with sources := { source with path := some path } :: rest }

def compileFile (options : Options) (path source : String) : Compilation :=
  let c := compile options source
  { c with result := c.result.map (·.atPath path) }

end BookCompiler
