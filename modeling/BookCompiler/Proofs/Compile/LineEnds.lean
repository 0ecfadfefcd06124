import BookCompiler.Proofs.Compile.Run
import BookCompiler.Proofs.Text.Lines

namespace BookCompiler

open Text Markdown

/-- A text whose lines end with a carriage return and a line feed. -/
def Text.withReturns (s : List Char) : List Char :=
  s.flatMap fun c => if c = '\n' then ['\r', '\n'] else [c]

theorem Text.lines_withReturns {s : List Char} (h : '\r' ∉ s) : lines (withReturns s) = lines s := by
  induction s with
  | nil => rfl
  | cons c s ih =>
      have hc : c ≠ '\r' := fun e => h (e ▸ List.mem_cons_self)
      have hs : '\r' ∉ s := fun hm => h (List.mem_cons_of_mem c hm)
      by_cases hend : c = '\n'
      · subst hend
        exact congrArg ([] :: ·) (ih hs)
      · have hcons : withReturns (c :: s) = c :: withReturns s := by simp [withReturns, hend]
        rw [hcons, lines.eq_4 _ _ (by simp [hend]) (by simp [hc]), lines.eq_4 _ _ (by simp [hend]) (by simp [hc]),
          ih hs]

theorem Book.read_of_lines {source text : String} (h : lines text.toList = lines source.toList) :
    Book.read text = (Book.read source).map fun book => { book with source := text } := by
  have hprepare : prepare text = prepare source := by
    simp only [prepare, removeComments, classifiedLines, h]
  simp only [read, hprepare]
  cases prepare source with
  | error e => rfl
  | ok s =>
      simp only [bind, Except.bind]
      cases sectionize s.toList with
      | error e => rfl
      | ok sections =>
          dsimp only
          cases sections.rest.mapM sectionOf <;> rfl

namespace Attempt

variable {ε α β : Type} {R : ε → ε → Prop} {t : α → α}

/-- The second of two attempts on twin drafts does what the first does, to the twin. -/
structure Mirrors (R : ε → ε → Prop) (t : α → α) (a b : Attempt ε α) : Prop where
  draft : b.draft = t a.draft
  refusal : Option.Rel R a.refusal b.refusal
  notices : b.notices = a.notices

namespace Mirrors

theorem of_map (hR : ∀ e, R e e) (a : Attempt ε α) : Mirrors R t a (a.map t) where
  draft := rfl
  refusal := by
    rw [map]
    cases a.refusal with
    | none => exact .none
    | some e => exact .some (hR e)
  notices := rfl

theorem andThen {a b : Attempt ε α} {f g : α → Attempt ε α} (h : Mirrors R t a b)
    (hfg : ∀ x, Mirrors R t (f x) (g (t x))) : Mirrors R t (a.andThen f) (b.andThen g) := by
  obtain ⟨x, r, ns⟩ := a
  obtain ⟨y, r', ns'⟩ := b
  obtain ⟨hdraft, hr, hnotices⟩ := h
  dsimp only at hdraft hr hnotices
  subst hdraft hnotices
  cases hr with
  | some hr => exact ⟨rfl, .some hr, rfl⟩
  | none =>
      obtain ⟨hdraft, hrefusal, hnotices⟩ := hfg x
      exact ⟨hdraft, hrefusal, congrArg (_ ++ ·) hnotices⟩

theorem each (hR : ∀ e, R e e) {f : β → α → Attempt ε α} (hf : ∀ b x, Mirrors R t (f b x) (f b (t x)))
    (bs : List β) (x : α) : Mirrors R t (Attempt.each f bs x) (Attempt.each f bs (t x)) := by
  induction bs generalizing x with
  | nil => exact of_map hR (.done x)
  | cons b bs ih => exact (hf b x).andThen ih

end Mirrors

end Attempt

def Source.ofText (text : String) : Source := { type := PipelineDraft.bookSourceType, content := text }

namespace PipelineDraft

def withSource (text : String) (d : PipelineDraft) : PipelineDraft := { d with sources := [.ofText text] }

variable (text : String) (d : PipelineDraft)

theorem parameter?_withSource (name : String) : (d.withSource text).parameter? name = d.parameter? name := rfl

theorem defineParameter_withSource (p : ParameterDraft) :
    (d.withSource text).defineParameter p = (d.defineParameter p).map (withSource text) := by
  rw [defineParameter, defineParameter, parameter?_withSource]
  split
  · rfl
  · split <;> rfl

theorem declare_withSource (declaration : Declaration) :
    (d.withSource text).declare declaration = (d.declare declaration).map (withSource text) := by
  rw [declare, declare]
  split
  · rfl
  · rw [defineParameter_withSource]
    rfl

theorem registerPersona_withSource {ε : Type} (name : String) (description : Option String) :
    ((d.withSource text).registerPersona name description : Attempt ε PipelineDraft) =
      (d.registerPersona name description).map (withSource text) := by
  have hpersonas : (d.withSource text).personas = d.personas := rfl
  rw [registerPersona, registerPersona, hpersonas]
  split
  · rfl
  · split
    · rfl
    · rfl
    · split <;> rfl

theorem addKnowledge_withSource (content : String) :
    (d.withSource text).addKnowledge content = (d.addKnowledge content).withSource text := by
  have hknowledge : (d.withSource text).knowledgeSources = d.knowledgeSources := rfl
  rw [addKnowledge, addKnowledge, hknowledge]
  split <;> rfl

end PipelineDraft

theorem Attempt.map_ofResult {ε α β : Type} {t : α → α} {change change' : β → α} (x : α) (r : Except ε β)
    (h : ∀ b, change' b = t (change b)) : ofResult (t x) change' r = (ofResult x change r).map t := by
  cases r with
  | error e => rfl
  | ok b => exact congrArg Attempt.done (h b)

theorem Command.applyToHead_withSource (text : String) (command : Command) (d : PipelineDraft) :
    command.applyToHead (d.withSource text) = (command.applyToHead d).map (.withSource text) := by
  cases command with
  | bookVersion | url | formfactor => exact Attempt.map_ofResult d _ fun _ => rfl
  | parameter declaration => exact d.declare_withSource text declaration
  | persona name description => exact d.registerPersona_withSource text name description
  | knowledge content => exact congrArg Attempt.done (d.addKnowledge_withSource text content)
  | _ => rfl

theorem CommandKind.applyToHead_withSource (text : String) (kind : CommandKind) (command : Command)
    (d : PipelineDraft) :
    kind.applyToHead command (d.withSource text) = (kind.applyToHead command d).map (.withSource text) := by
  rw [applyToHead, applyToHead]
  split
  · rfl
  · exact command.applyToHead_withSource text d

namespace Workpiece

def withSource (text : String) (w : Workpiece) : Workpiece := w.withPipeline (w.pipeline.withSource text)

variable (text : String) (w : Workpiece)

theorem task_withSource : (w.withSource text).task = w.task := rfl

theorem pipeline_withSource : (w.withSource text).pipeline = w.pipeline.withSource text := rfl

theorem addSample_withSource : (w.withSource text).addSample = w.addSample.map (withSource text) := by
  rw [addSample, addSample, task_withSource, pipeline_withSource]
  split
  · rfl
  · rw [PipelineDraft.parameter?_withSource]
    split <;> rfl

theorem enact_withSource (type : SectionType) :
    (w.withSource text).enact type = (w.enact type).map (withSource text) := by
  unfold enact
  rw [task_withSource]
  cases type with
  | dialog | instrument | action => rfl
  | prompt | simple => dsimp only; split <;> rfl
  | script =>
      dsimp only
      split
      · rfl
      · split <;> rfl
  | sample =>
      dsimp only
      split
      · rfl
      · exact w.addSample_withSource text
  | knowledge =>
      dsimp only
      split
      · rfl
      · rw [pipeline_withSource, PipelineDraft.addKnowledge_withSource]
        rfl

theorem setType_withSource (type : SectionType) :
    (w.withSource text).setType type = (w.setType type).map (withSource text) := by
  rw [setType, setType, task_withSource]
  split
  · rfl
  · exact (w.withTask { w.task with sectionType := some type }).enact_withSource text type

theorem setPersona_withSource (name : String) (description : Option String) :
    (w.withSource text).setPersona name description = (w.setPersona name description).map (withSource text) := by
  rw [setPersona, setPersona, task_withSource, pipeline_withSource, PipelineDraft.registerPersona_withSource]
  split <;> rfl

theorem expect_withSource (text : String) (w : Workpiece) (sign : ExpectSign) (unit : ExpectUnit) (amount : UInt32) :
    (w.withSource text).expect sign unit amount = (w.expect sign unit amount).map (withSource text) := by
  rw [expect, expect, task_withSource]
  exact Attempt.map_ofResult (t := withSource text) (w.withTask _) _ fun _ => rfl

end Workpiece

theorem Command.applyToTask_withSource (text : String) (command : Command) (w : Workpiece) :
    command.applyToTask (w.withSource text) = (command.applyToTask w).map (.withSource text) := by
  cases command with
  | parameter declaration =>
      exact congrArg (Attempt.map w.withPipeline) (w.pipeline.declare_withSource text declaration)
  | persona name description => exact w.setPersona_withSource text name description
  | sectionType type => exact w.setType_withSource text type
  | expectAmount sign unit amount => exact w.expect_withSource text sign unit amount
  | expectFormat | foreach => exact Attempt.map_ofResult w _ fun _ => rfl
  | joker name =>
      rw [applyToTask, applyToTask, Workpiece.task_withSource]
      split <;> rfl
  | _ => rfl

/-- The same error; the state that it shows may be that of a draft made from another text. -/
inductive CompileError.Restated (text : String) : CompileError → CompileError → Prop
  | same (e : CompileError) : Restated text e e
  | state (e : ApplyError) (line : String) (kind : CommandKind) (d : PipelineDraft) :
      Restated text (.refused e line kind d.snapshot) (.refused e line kind (d.withSource text).snapshot)
  | inPipeline (url : String) {e f : CompileError} (h : Restated text e f) :
      Restated text (.inPipeline url e) (.inPipeline url f)

theorem CompileError.Restated.within {text : String} {e f : CompileError} (h : Restated text e f)
    (url : Option String) : Restated text (e.within url) (f.within url) := by
  cases h with
  | same e => exact .same _
  | inPipeline u h => cases url <;> exact .inPipeline u h
  | state e line kind d =>
      cases url with
      | none => exact .state e line kind d
      | some u => exact .inPipeline u (.state e line kind d)

namespace PipelineDraft

variable (text : String)

theorem applyHeadCommand_withSource (c : WrittenCommand) (d : PipelineDraft) :
    (applyHeadCommand c d).Mirrors (CompileError.Restated text) (withSource text)
      (applyHeadCommand c (d.withSource text)) := by
  simp only [applyHeadCommand, owner?_builtIn, CommandKind.applyToHead_withSource]
  generalize c.command.kind.applyToHead c.command d = a
  dsimp only [Attempt.mapRefusal, Attempt.map]
  refine ⟨rfl, ?_, rfl⟩
  cases a.refusal with
  | none => exact .none
  | some e => exact .some (.state e c.line c.command.kind a.draft)

theorem applyHead_withSource (lines : List String) (d : PipelineDraft) :
    (applyHead lines d).Mirrors (CompileError.Restated text) (withSource text)
      (applyHead lines (d.withSource text)) := by
  simp only [applyHead]
  split
  · exact ⟨rfl, .some (.same _), rfl⟩
  · exact Attempt.Mirrors.andThen ⟨rfl, .none, rfl⟩
      (Attempt.Mirrors.each .same (applyHeadCommand_withSource text) _)

end PipelineDraft

theorem Workpiece.applyCommand_withSource (text : String) (c : WrittenCommand) (w : Workpiece) :
    applyCommand c (w.withSource text) = (applyCommand c w).map (withSource text) := by
  simp only [applyCommand, owner?_builtIn, CommandKind.applyToTask]
  split
  · rfl
  · rw [Command.applyToTask_withSource]
    rfl

namespace BookSection

variable (text : String) (s : BookSection) (limits : Script.Limits)

theorem declareUsed_withSource (state name : String) (d : PipelineDraft) :
    s.declareUsed state name (d.withSource text) = (s.declareUsed state name d).map (.withSource text) := by
  rw [declareUsed, PipelineDraft.defineParameter_withSource]
  rfl

theorem addTask_withSource (w : Workpiece) :
    (s.addTask limits w).Mirrors (CompileError.Restated text) (.withSource text)
      (s.addTask limits (w.withSource text)) := by
  have hfinish (state : String) (t : Task) :
      s.finishTask limits state (w.pipeline.withSource text) t = s.finishTask limits state w.pipeline t := rfl
  simp only [addTask, Workpiece.task_withSource, Workpiece.pipeline_withSource, hfinish]
  split
  · exact .of_map .same (.done w.pipeline)
  · split
    · rename_i e _
      exact .of_map .same (.refused w.pipeline e)
    · refine Attempt.Mirrors.andThen (Attempt.Mirrors.each .same ?_ _ w.pipeline) ?_
      · intro name d
        rw [declareUsed_withSource]
        exact .of_map .same _
      · exact fun d => .of_map .same (.done _)

theorem apply_withSource (d : PipelineDraft) :
    (s.apply limits d).Mirrors (CompileError.Restated text) (.withSource text)
      (s.apply limits (d.withSource text)) := by
  simp only [apply]
  split
  · exact .of_map .same (.refused d _)
  · rename_i task _
    split
    · exact ⟨rfl, .some (.same _), rfl⟩
    · rename_i commands notices _
      have hopen : (⟨task, d.withSource text⟩ : Workpiece) = Workpiece.withSource text ⟨task, d⟩ := rfl
      rw [hopen]
      have hstep (c : WrittenCommand) (w : Workpiece) : (Workpiece.applyCommand c w).Mirrors
          (CompileError.Restated text) (.withSource text) (Workpiece.applyCommand c (w.withSource text)) := by
        rw [Workpiece.applyCommand_withSource]
        exact .of_map .same _
      have hrun := Attempt.Mirrors.each .same hstep (withSectionType commands) ⟨task, d⟩
      refine Attempt.Mirrors.andThen ⟨congrArg Workpiece.pipeline hrun.draft, hrun.refusal, ?_⟩ fun _ => ?_
      · exact congrArg (notices ++ ·) hrun.notices
      · rw [hrun.draft]
        exact s.addTask_withSource text limits _

end BookSection

theorem Book.assemble_withSource (text : String) (limits : Script.Limits) (book : Book) :
    (book.assemble limits).Mirrors (CompileError.Restated text) (.withSource text)
      (Book.assemble limits { book with source := text }) :=
  ((PipelineDraft.ofBook book).applyHead_withSource text book.head.commandLines).andThen
    (Attempt.Mirrors.each .same (fun s => s.apply_withSource text limits) book.sections)

namespace Pipeline

def withSource (text : String) (p : Pipeline) : Pipeline := { p with sources := [.ofText text] }

variable (text : String) (p : Pipeline)

theorem producerFault?_withSource (producers : List (String × String)) (tasks : List Task) :
    (p.withSource text).producerFault? producers tasks = p.producerFault? producers tasks := by
  induction tasks generalizing producers with
  | nil => rfl
  | cons t tasks ih =>
      simp only [producerFault?, ih]
      rfl

theorem validate_withSource : (p.withSource text).validate = p.validate := by
  have hproducers : (p.withSource text).singleProducers = p.singleProducers := by
    rw [singleProducers, singleProducers, producerFault?_withSource]
    rfl
  rw [validate, validate, hproducers]
  rfl

theorem applyAbstractions_withSource :
    (p.withSource text).applyAbstractions = p.applyAbstractions.withSource text := by
  have hinfer : (p.withSource text).inferFormfactor = p.inferFormfactor.withSource text := by
    have hformfactor : (p.withSource text).formfactor = p.formfactor := rfl
    rw [inferFormfactor, inferFormfactor, hformfactor]
    split <;> rfl
  have hscaffold (q : Pipeline) : (q.withSource text).scaffoldChatbot = q.scaffoldChatbot.withSource text := by
    have hpersonas : (q.withSource text).personas = q.personas := rfl
    have hbare : (q.withSource text).isBare = q.isBare := rfl
    rw [scaffoldChatbot, scaffoldChatbot, hpersonas, hbare]
    split
    · rfl
    · split <;> rfl
  rw [applyAbstractions, hinfer, hscaffold]
  rfl

end Pipeline

theorem PipelineDraft.finish_withSource (text : String) (options : Options) (d : PipelineDraft) :
    (d.withSource text).finish options = (d.finish options).withSource text := by
  have hbuild : (d.withSource text).resolveRoles.build = d.resolveRoles.build.withSource text := rfl
  rw [finish, finish, hbuild, Pipeline.applyAbstractions_withSource]
  split <;> rfl

theorem Options.check_withSource (text : String) (options : Options) (p : Pipeline) :
    options.check (p.withSource text) = (options.check p).map (.withSource text) := by
  have hurl : (p.withSource text).url = p.url := rfl
  rw [check, check, Pipeline.validate_withSource, hurl]
  split
  · split <;> rfl
  · rfl

/-- Two compilations with the same result and notices, but for the text that each remembers. -/
structure Compilation.Restated (text : String) (c c' : Compilation) : Prop where
  notices : c'.notices = c.notices
  ok : ∀ p, c.result = .ok p → c'.result = .ok (p.withSource text)
  error : ∀ e, c.result = .error e → ∃ f, c'.result = .error f ∧ CompileError.Restated text e f

theorem Compilation.Restated.of_error {text : String} {e f : CompileError} (h : e.Restated text f)
    (notices : List Notice) : Restated text ⟨.error e, notices⟩ ⟨.error f, notices⟩ where
  notices := rfl
  ok p hp := by cases hp
  error e' he := by
    obtain rfl := Except.error.inj he
    exact ⟨f, rfl, h⟩

theorem Compilation.Restated.of_map {text : String} {c c' : Compilation} (hnotices : c'.notices = c.notices)
    (hresult : c'.result = c.result.map (.withSource text)) : c.Restated text c' where
  notices := hnotices
  ok p hp := by rw [hresult, hp]; rfl
  error e he := ⟨e, by rw [hresult, he]; rfl, .same e⟩

theorem Book.compile_withSource (text : String) (options : Options) (book : Book) :
    (book.compile options).Restated text (Book.compile options { book with source := text }) := by
  have hrun := book.assemble_withSource text options.limits
  simp only [compile]
  generalize book.assemble options.limits = a at hrun ⊢
  generalize Book.assemble options.limits { book with source := text } = b at hrun ⊢
  obtain ⟨d, r, ns⟩ := a
  obtain ⟨d', r', ns'⟩ := b
  obtain ⟨hdraft, hrefusal, hnotices⟩ := hrun
  dsimp only at hdraft hrefusal hnotices ⊢
  subst hdraft hnotices
  cases hrefusal with
  | none =>
      refine .of_map rfl ?_
      dsimp only
      rw [PipelineDraft.finish_withSource, Options.check_withSource]
  | some hrestated => exact .of_error (hrestated.within d.url) _

theorem compile_of_lines (options : Options) {source text : String} (h : lines text.toList = lines source.toList) :
    (compile options source).Restated text (compile options text) := by
  unfold compile
  rw [Book.read_of_lines h]
  cases Book.read source with
  | error e => exact .of_map rfl rfl
  | ok book => exact book.compile_withSource text options

/-- The ends of the lines of a book are not seen in its pipeline, except in the text that the pipeline remembers. -/
theorem compile_withReturns (options : Options) (source text : String) (hplain : '\r' ∉ source.toList)
    (htext : text = String.ofList (withReturns source.toList)) :
    (compile options text).notices = (compile options source).notices ∧
      ((∃ q, (compile options text).result = .ok q) ↔ ∃ p, (compile options source).result = .ok p) ∧
      (∀ p q, (compile options source).result = .ok p → (compile options text).result = .ok q →
        p.sources = [.ofText source] ∧ q = { p with sources := [.ofText text] }) ∧
      ∀ e f, (compile options source).result = .error e → (compile options text).result = .error f →
        CompileError.Restated text e f := by
  have hlines : lines text.toList = lines source.toList := by
    rw [htext, String.toList_ofList, lines_withReturns hplain]
  have h := compile_of_lines options hlines
  have hself := compile_of_lines options (rfl : lines source.toList = _)
  refine ⟨h.notices, ⟨?_, ?_⟩, ?_, ?_⟩
  · rintro ⟨q, hq⟩
    cases hresult : (compile options source).result with
    | ok p => exact ⟨p, rfl⟩
    | error e =>
        obtain ⟨f, hf, -⟩ := h.error e hresult
        rw [hf] at hq
        cases hq
  · rintro ⟨p, hp⟩
    exact ⟨p.withSource text, h.ok p hp⟩
  · intro p q hp hq
    have hkept := hself.ok p hp
    rw [hp, Except.ok.injEq] at hkept
    rw [h.ok p hp, Except.ok.injEq] at hq
    exact ⟨congrArg Pipeline.sources hkept, hq.symm⟩
  · intro e f he hf
    obtain ⟨f', hf', hrestated⟩ := h.error e he
    rw [hf', Except.error.injEq] at hf
    rwa [hf] at hrestated

def letterBook : String :=
  "# T\n<!-- to be\ncontinued -->\n## A\n```\nDear \x7bname\x7d,\n\nhello\n```\n-> \x7bletter\x7d\n"

theorem compile_withReturns_letterBook : '\r' ∉ letterBook.toList ∧
    ∃ p text, (compile {} letterBook).result = .ok p ∧ text = String.ofList (withReturns letterBook.toList) ∧
      p.sources = [.ofText letterBook] ∧
      (compile {} text).result = .ok { p with sources := [.ofText text] } := by
  have hplain : '\r' ∉ letterBook.toList := by decide +kernel
  obtain ⟨p, hp⟩ := exists_of_isOk (r := (compile {} letterBook).result) (by decide +kernel)
  obtain ⟨-, hcompiles, hpipeline, -⟩ := compile_withReturns {} letterBook _ hplain rfl
  obtain ⟨q, hq⟩ := hcompiles.mpr ⟨p, hp⟩
  obtain ⟨hsources, rfl⟩ := hpipeline p q hp hq
  exact ⟨hplain, p, _, hp, rfl, hsources, hq⟩

end BookCompiler
