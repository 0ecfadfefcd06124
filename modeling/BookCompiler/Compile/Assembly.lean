import BookCompiler.Book
import BookCompiler.Command.Apply
import BookCompiler.Command.Registry
import BookCompiler.Compile.Dependencies
import BookCompiler.Compile.Error
import BookCompiler.Wire.Draft

namespace BookCompiler

namespace Attempt

variable {ε α β : Type}

def andThen (a : Attempt ε α) (f : α → Attempt ε α) : Attempt ε α :=
  match a.refusal with
  | some _ => a
  | none =>
    let b := f a.draft
    { b with notices := a.notices ++ b.notices }

/-- One attempt after the other, up to the first that is refused. -/
def each (f : β → α → Attempt ε α) : List β → α → Attempt ε α
  | [], draft => .done draft
  | b :: rest, draft => (f b draft).andThen (each f rest)

end Attempt

structure WrittenCommand where
  line : String
  command : Command
  deriving Repr, DecidableEq

/-- The commands of a place with the notices on their lines, up to the first line that can not be
read. -/
def readCommands (place : Place) :
    List String → Except ParseError (List WrittenCommand) × List Notice
  | [] => (.ok [], [])
  | line :: rest =>
    let notices := Registry.builtIn.readNotices place line
    match Registry.builtIn.read place line with
    | .error e => (.error e, notices)
    | .ok command =>
      let (commands, more) := readCommands place rest
      (commands.map (⟨line, command⟩ :: ·), notices ++ more)

namespace PipelineDraft

def bookSourceType : String := "BOOK"

def ofBook (book : Book) : PipelineDraft :=
  { title := book.head.title, description := book.head.description
    sources := [{ type := bookSourceType, content := book.source }] }

def applyHeadCommand (c : WrittenCommand) (d : PipelineDraft) :
    Attempt CompileError PipelineDraft :=
  match Registry.builtIn.owner? c.command with
  | none => .refused d (.unowned c.command.kind c.line)
  | some kind =>
    let a := kind.applyToHead c.command d
    a.mapRefusal fun e => .refused e c.line kind a.draft.snapshot

def applyHead (lines : List String) (d : PipelineDraft) : Attempt CompileError PipelineDraft :=
  match readCommands .head lines with
  | (.error e, notices) => { draft := d, refusal := some (.unreadable e), notices }
  | (.ok commands, notices) =>
    ({ draft := d, notices } : Attempt CompileError PipelineDraft).andThen
      (Attempt.each applyHeadCommand commands)

end PipelineDraft

namespace Workpiece

def applyCommand (c : WrittenCommand) (w : Workpiece) : Attempt CompileError Workpiece :=
  match Registry.builtIn.owner? c.command with
  | none => .refused w (.unowned c.command.kind c.line)
  | some kind =>
    let a := kind.applyToTask c.command w
    a.mapRefusal fun e => .refused e c.line kind a.draft.task.snapshot

end Workpiece

def withSectionType (commands : List WrittenCommand) : List WrittenCommand :=
  if commands.any fun c => c.command.kind = .sectionType then commands
  else ⟨"SECTION PROMPT", .sectionType .prompt⟩ :: commands

namespace BookSection

def draft (s : BookSection) : TaskDraft :=
  { name := s.name, title := s.title, description := s.description, content := s.content
    language := s.language }

def fault {α : Type} (s : BookSection) (state : String) (f : SectionFault) :
    Except CompileError α :=
  .error (.badSection f s.title state)

def openDraft (s : BookSection) : Except CompileError TaskDraft :=
  match s.result with
  | none => .ok s.draft
  | some raw =>
    match Name.readReference raw with
    | .error e => s.fault s.draft.snapshot (.parameter e)
    | .ok name => .ok { s.draft with result := some name }

def settleLanguage (s : BookSection) (state : String) (t : Task) : Except CompileError Task :=
  if t.type ≠ .script then .ok { t with language := none }
  else
    match Script.Language.ofTag? (t.language.getD "") with
    | none => s.fault state (.noScriptLanguage s.title)
    | some language => .ok { t with language := some language.name }

def finishTask (s : BookSection) (limits : Script.Limits) (state : String) (d : PipelineDraft)
    (t : Task) : Except CompileError Task :=
  if d.hasTask t.name then s.fault state (.nameTaken t.name s.title)
  else do
    let t ← s.settleLanguage state t
    match t.neededNames limits with
    | .error e => .error (.ofScript e)
    | .ok dependencies => .ok { t with dependencies }

def declareUsed (s : BookSection) (state : String) (name : String) (d : PipelineDraft) :
    Attempt CompileError PipelineDraft :=
  (d.defineParameter { name }).mapRefusal fun e => .badSection (.parameter e) s.title state

/-- Adds the task that a section is, if it is one, and the parameters that it uses. -/
def addTask (s : BookSection) (limits : Script.Limits) (w : Workpiece) :
    Attempt CompileError PipelineDraft :=
  match w.task.build with
  | none => .done w.pipeline
  | some t =>
    let state := w.task.snapshot
    match s.finishTask limits state w.pipeline t with
    | .error e => .refused w.pipeline e
    | .ok t =>
      (Attempt.each (s.declareUsed state) (t.dependencies ++ t.result.toList) w.pipeline).andThen
        fun d => .done { d with tasks := d.tasks ++ [t] }

def apply (limits : Script.Limits) (s : BookSection) (d : PipelineDraft) :
    Attempt CompileError PipelineDraft :=
  match s.openDraft with
  | .error e => .refused d e
  | .ok task =>
    match readCommands .task s.commandLines with
    | (.error e, notices) => { draft := d, refusal := some (.unreadable e), notices }
    | (.ok commands, notices) =>
      let a := Attempt.each Workpiece.applyCommand (withSectionType commands) ⟨task, d⟩
      let noted : Attempt CompileError PipelineDraft :=
        { draft := a.draft.pipeline, refusal := a.refusal, notices := notices ++ a.notices }
      noted.andThen fun _ => s.addTask limits a.draft

end BookSection

namespace Book

def assemble (limits : Script.Limits) (book : Book) : Attempt CompileError PipelineDraft :=
  ((PipelineDraft.ofBook book).applyHead book.head.commandLines).andThen
    (Attempt.each (BookSection.apply limits) book.sections)

end Book

end BookCompiler
