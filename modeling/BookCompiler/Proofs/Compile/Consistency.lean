import BookCompiler.Proofs.Command.Faults
import BookCompiler.Proofs.Command.Growth
import BookCompiler.Proofs.Compile.Closure
import BookCompiler.Proofs.Compile.Headings
import BookCompiler.Proofs.Compile.Rebuild
import BookCompiler.Proofs.Compile.Retake

namespace BookCompiler

def ParameterError.isConflict : ParameterError → Bool
  | redefined _ _ _ | conflictingRole _ => true
  | invalidName _ _ | reservedName _ => false

/-- The errors that would show the parts of the compiler at odds with each other: every one of them is ruled out
by a part that runs before. -/
def CompileError.isInternal : CompileError → Bool
  | unowned _ _ => true
  | unreadable error => error.isInternal
  | refused error _ _ _ => error.isInternal
  | script fault => fault.isInternal
  | badSection (.parameter error) _ _ => error.isConflict
  | badSection _ _ _ | crash | logic _ => false
  | inPipeline _ cause => cause.isInternal

theorem CompileError.isInternal_ofScript (e : Script.Failure) : (ofScript e).isInternal = e.isInternal := by
  cases e <;> rfl

theorem CompileError.isInternal_within (url : Option String) (e : CompileError) :
    (e.within url).isInternal = e.isInternal := by
  cases e with
  | inPipeline u cause => cases url <;> rfl
  | _ => cases url <;> rfl

namespace Attempt

variable {ε α β : Type} {P : ε → Prop}

theorem RefusesAs.andThen {a : Attempt ε α} {f : α → Attempt ε α} (ha : a.RefusesAs P)
    (hf : a.refusal = none → (f a.draft).RefusesAs P) : (a.andThen f).RefusesAs P := by
  cases h : a.refusal with
  | none => simpa [RefusesAs, Attempt.andThen, h] using hf h
  | some e => simpa [RefusesAs, Attempt.andThen, h] using ha e h

theorem refusesAs_each {f : β → α → Attempt ε α} {bs : List β} (h : ∀ b ∈ bs, ∀ x, (f b x).RefusesAs P) (x : α) :
    (each f bs x).RefusesAs P := by
  induction bs generalizing x with
  | nil => exact refusesAs_of_accepted rfl
  | cons b bs ih =>
      obtain ⟨hb, hbs⟩ := List.forall_mem_cons.mp h
      exact (hb x).andThen fun _ => ih hbs _

end Attempt

open Attempt

section Read

open Markdown

theorem Book.sectionOf_inWriting (s : Markdown.Section) : FailsInWriting (Book.sectionOf s) := by
  have hcontent : FailsInWriting (Body.read s.content.toList).content := by
    unfold Body.content
    split
    · exact .ok _
    · exact .ok _
    · exact .ok _
    · exact .error rfl
  unfold sectionOf
  dsimp only
  split
  · rename_i e he
    exact .error (hcontent e he)
  · exact .ok _

theorem Book.read_inWriting (source : String) : FailsInWriting (Book.read source) := by
  have hsection (text : List Char) : FailsInWriting (readSection text) := by
    unfold readSection
    dsimp only
    split
    · exact .error rfl
    · exact .ok _
  have hflatten (s : List Char) : FailsInWriting (flatten s) := (FailsAs.mapM fun text _ => hsection text).map _
  refine (hflatten _).bind fun text htext => ?_
  rcases sectionize_flatten htext with hempty | ⟨sections, hsections⟩
  · rw [hempty]
    exact .error rfl
  · rw [hsections]
    exact (FailsAs.mapM fun s _ => sectionOf_inWriting s).bind fun _ _ => .ok _

theorem readCommands_inWriting (place : Place) (lines : List String) : FailsInWriting (readCommands place lines).1 := by
  induction lines with
  | nil => exact .ok []
  | cons line lines ih =>
      unfold readCommands
      dsimp only
      split
      · rename_i e he
        exact .error (Registry.read_inWriting place line e he)
      · exact ih.map _

end Read

abbrev Attempt.RefusesBook {α : Type} (a : Attempt CompileError α) : Prop := a.RefusesAs fun e => e.isInternal = false

theorem applyHeadCommand_refusesBook {c : WrittenCommand} (h : c.command.kind.usableIn .head = true)
    (d : PipelineDraft) : (PipelineDraft.applyHeadCommand c d).RefusesBook := by
  rw [PipelineDraft.applyHeadCommand, owner?_builtIn]
  refine RefusesAs.mapRefusal ?_ fun e he => he
  rw [CommandKind.applyToHead, CommandKind.refusal?_own rfl h]
  exact c.command.applyToHead_conflicts h d

theorem applyHead_refusesBook (lines : List String) (d : PipelineDraft) : (d.applyHead lines).RefusesBook := by
  rw [PipelineDraft.applyHead]
  split
  · rename_i e notices hread
    rintro _ ⟨⟩
    exact readCommands_inWriting .head lines e (congrArg Prod.fst hread)
  · rename_i cs notices hread
    refine RefusesAs.andThen (refusesAs_of_accepted rfl) fun _ => refusesAs_each (fun c hc x => ?_) _
    obtain ⟨-, hline⟩ := mem_readCommands (congrArg Prod.fst hread) hc
    exact applyHeadCommand_refusesBook (Registry.usableIn_of_read hline) x

theorem applyCommand_refusesBook {c : WrittenCommand} (h : c.command.kind.usableIn .task = true) (w : Workpiece) :
    (Workpiece.applyCommand c w).RefusesBook := by
  rw [Workpiece.applyCommand, owner?_builtIn]
  refine RefusesAs.mapRefusal ?_ fun e he => he
  rw [CommandKind.applyToTask, CommandKind.refusal?_own rfl h]
  exact c.command.applyToTask_conflicts h w

namespace BookSection

variable {s : BookSection} {d : PipelineDraft} {w : Workpiece}

theorem usableIn_of_gives {c : Command} (h : s.Gives c) : c.kind.usableIn .task = true := by
  rcases h with rfl | ⟨line, -, hread⟩
  · rfl
  · exact Registry.usableIn_of_read hread

def Makes (s : BookSection) (d : PipelineDraft) (w : Workpiece) : Prop :=
  ∃ task cs, s.openDraft = .ok task ∧ (readCommands .task s.commandLines).1 = .ok cs ∧
    (each Workpiece.applyCommand (withSectionType cs) ⟨task, d⟩).accepted? = some w

theorem Makes.result (h : s.Makes d w) : ∀ name ∈ w.task.result, isReserved name = false := by
  obtain ⟨task, cs, hopen, -, hrun⟩ := h
  obtain ⟨haccepted, rfl⟩ := accepted?_eq_some.mp hrun
  refine each_keeps (I := fun w => ∀ name ∈ w.task.result, isReserved name = false) ?_ ?_ haccepted
  · intro c _ w hw hstep
    obtain ⟨-, hdraft⟩ := Workpiece.applyCommand_accepted hstep
    rw [hdraft, (c.command.applyToTask_grows w).task.result]
    exact hw
  · intro name hname
    obtain ⟨-, hresult⟩ := openDraft_ok hopen
    obtain ⟨raw, -, hraw⟩ := hresult name hname
    exact (Name.valid_of_readReference hraw).2

/-- All parameters that a finished task uses can be registered. -/
theorem Makes.declareUsed_accepted (h : s.Makes d w) {limits : Script.Limits} {t u : Task} (hbuild : w.task.build = some t)
    (hfinish : s.finishTask limits w.task.snapshot w.pipeline t = .ok u) :
    (each (s.declareUsed w.task.snapshot) (u.dependencies ++ u.result.toList) w.pipeline).refusal = none := by
  obtain ⟨-, v, hv, hneeded, hset⟩ := finishTask_ok hfinish
  obtain ⟨language, rfl⟩ := settleLanguage_ok hv
  obtain ⟨type, -, rfl⟩ := TaskDraft.build_eq_some hbuild
  have hresult : u.result = w.task.result := by rw [hset]
  refine (PipelineDraft.each_declareUsed fun name hname => ?_).1
  rcases List.mem_append.mp hname with hname | hname
  · exact (Task.neededNames_ok hneeded).2 name hname
  · rw [hresult, Option.mem_toList] at hname
    exact h.result name hname

theorem openDraft_failsAs (s : BookSection) : FailsAs s.openDraft fun e => e.isInternal = false := by
  have hread (raw : String) : FailsAs (Name.readReference raw) fun e => e.isConflict = false := by
    refine .ite (.error rfl) ?_
    split
    · exact .error rfl
    · exact .ite (.error rfl) (.ok _)
  unfold openDraft
  split
  · exact .ok _
  · rename_i raw _
    split
    · rename_i e he
      exact .error (hread raw e he)
    · exact .ok _

theorem finishTask_failsAs (s : BookSection) (limits : Script.Limits) (state : String) (d : PipelineDraft) (t : Task) :
    FailsAs (s.finishTask limits state d t) fun e => e.isInternal = false := by
  have hsettle : FailsAs (s.settleLanguage state t) fun e => e.isInternal = false := by
    refine .ite (.ok _) ?_
    split
    · exact .error rfl
    · exact .ok _
  refine .ite (.error rfl) (hsettle.bind fun v hv => ?_)
  split
  · rename_i e he
    refine .error ((CompileError.isInternal_ofScript e).trans (Task.neededNames_failsAs ?_ limits e he))
    intro htype
    rcases settleLanguage_language hv with ⟨-, hlanguage⟩ | ⟨hother, -⟩
    · exact hlanguage
    · exact absurd htype hother
  · exact .ok _

theorem addTask_refusesBook (h : s.Makes d w) (limits : Script.Limits) : (s.addTask limits w).RefusesBook := by
  unfold addTask
  split
  · exact refusesAs_of_accepted rfl
  · rename_i t hbuild
    dsimp only
    split
    · rename_i e he
      exact refusesAs_refused w.pipeline (s.finishTask_failsAs limits _ _ t e he)
    · rename_i u hu
      exact (refusesAs_of_accepted (h.declareUsed_accepted hbuild hu)).andThen fun _ => refusesAs_of_accepted rfl

theorem apply_refusesBook (limits : Script.Limits) (s : BookSection) (d : PipelineDraft) :
    (s.apply limits d).RefusesBook := by
  unfold apply
  split
  · rename_i e he
    exact refusesAs_refused d (s.openDraft_failsAs e he)
  · rename_i task hopen
    split
    · rename_i e notices hread
      rintro _ ⟨⟩
      exact readCommands_inWriting .task s.commandLines e (congrArg Prod.fst hread)
    · rename_i cs notices hread
      have hcs : (readCommands .task s.commandLines).1 = .ok cs := congrArg Prod.fst hread
      have hrun : (each Workpiece.applyCommand (withSectionType cs) ⟨task, d⟩).RefusesBook :=
        refusesAs_each (fun c hc => applyCommand_refusesBook (usableIn_of_gives (gives_of_mem hcs hc))) _
      refine RefusesAs.andThen hrun fun haccepted => ?_
      exact addTask_refusesBook ⟨task, cs, hopen, hcs, accepted?_eq_some.mpr ⟨haccepted, rfl⟩⟩ limits

end BookSection

/-- A compilation fails for what the book says, a script that makes its analysis crash included, and never because
the parts of the compiler are at odds. No parameter that a task uses is refused when it is registered, whatever was
compiled before. -/
theorem compile_consistent (options : Options) (source : String) :
    (∀ e, (compile options source).result = .error e → e.isInternal = false) ∧
      ∀ (s : BookSection) (d : PipelineDraft) (w : Workpiece) (t u : Task), s.Makes d w → w.task.build = some t →
        s.finishTask options.limits w.task.snapshot w.pipeline t = .ok u →
          (each (s.declareUsed w.task.snapshot) (u.dependencies ++ u.result.toList) w.pipeline).refusal = none := by
  refine ⟨fun e he => ?_, fun s d w t u hmakes hbuild hfinish => hmakes.declareUsed_accepted hbuild hfinish⟩
  unfold compile at he
  cases hread : Book.read source with
  | error cause =>
      rw [hread] at he
      cases he
      exact Book.read_inWriting source cause hread
  | ok book =>
      rw [hread] at he
      have hassemble : (book.assemble options.limits).RefusesBook :=
        (applyHead_refusesBook book.head.commandLines _).andThen fun _ =>
          refusesAs_each (fun s _ => BookSection.apply_refusesBook options.limits s) _
      dsimp only [Book.compile] at he
      split at he
      · rename_i cause hcause
        cases he
        rw [CompileError.isInternal_within]
        exact hassemble cause hcause
      · rw [Options.check] at he
        split at he
        · split at he
          · cases he
            exact CompileError.isInternal_within _ _
          · cases he
        · cases he

def twinsBook : String := "# T\n## A\n> \x7bx\x7d\n\n-> \x7by\x7d\n## A\n> \x7by\x7d"

def twinSection : BookSection where
  title := "A"
  name := "a"
  description := none
  content := "\x7bx\x7d"
  language := none
  result := some "y"
  commandLines := []

def twinPiece : Workpiece where
  task := { twinSection.draft with result := some "y", sectionType := some .prompt }
  pipeline := { title := "T" }

def twinTask : Task := { name := "a", title := "A", type := .prompt, content := "\x7bx\x7d", result := some "y" }

theorem compile_consistent_twinsBook :
    (∃ e, (compile {} twinsBook).result = .error e ∧ e.isInternal = false) ∧
      ((Book.read twinsBook).toOption.bind fun book => book.sections.head?) = some twinSection ∧
      (each (twinSection.declareUsed twinPiece.task.snapshot) ["x", "y"] twinPiece.pipeline).refusal = none := by
  have hfails : (compile {} twinsBook).result.isOk = false := by decide +kernel
  have hmakes : twinSection.Makes { title := "T" } twinPiece :=
    ⟨{ twinSection.draft with result := some "y" }, [], by decide +kernel, rfl, by decide +kernel⟩
  have hfinish : twinSection.finishTask ({} : Options).limits twinPiece.task.snapshot twinPiece.pipeline twinTask =
      .ok { twinTask with dependencies := ["x"] } := by decide +kernel
  obtain ⟨hnever, hregisters⟩ := compile_consistent {} twinsBook
  refine ⟨?_, by decide +kernel, hregisters twinSection _ twinPiece twinTask _ hmakes (by decide +kernel) hfinish⟩
  cases hresult : (compile {} twinsBook).result with
  | ok p =>
      rw [hresult] at hfails
      cases hfails
  | error e => exact ⟨e, rfl, hnever e hresult⟩

end BookCompiler
