import BookCompiler.Proofs.Compile.Validity

namespace BookCompiler

/-- No command of the book declares an input or an output. -/
def Book.DeclaresNoRole (book : Book) : Prop :=
  (∀ line ∈ book.head.commandLines, ∀ d, Registry.builtIn.read .head line = .ok (.parameter d) →
    d.isInput = false ∧ d.isOutput = false) ∧
  ∀ s ∈ book.sections, ∀ line ∈ s.commandLines, ∀ d,
    Registry.builtIn.read .task line = .ok (.parameter d) → d.isInput = false ∧ d.isOutput = false

def Command.Roleless (c : Command) : Prop :=
  ∀ d, c = .parameter d → d.isInput = false ∧ d.isOutput = false

theorem Command.Roleless.declared {c : Command} (h : c.Roleless) {q : ParameterDraft}
    (hq : c.declared? = some q) : q.role = none := by
  cases c with
  | parameter d =>
      obtain ⟨hin, hout⟩ := h d rfl
      simp only [declared?, Declaration.role, hin, hout, Except.toOption, Option.map_some,
        Option.some.injEq] at hq
      rw [← hq]
  | _ => cases hq

namespace PipelineDraft

/-- The role of every parameter is still open. -/
def RolesOpen (d : PipelineDraft) : Prop := ∀ q ∈ d.parameters, q.role = none

namespace RolesOpen

variable {d e : PipelineDraft}

theorem setParameter (h : d.RolesOpen) {new : ParameterDraft} (hnew : new.role = none) :
    (d.setParameter new).RolesOpen := by
  intro q hq
  rcases mem_replaceFirst hq with rfl | hq
  · exact hnew
  · exact h q hq

theorem merge {existing q : ParameterDraft} (he : existing.role = none) (hq : q.role = none) :
    (existing.merge q).draft.role = none := by
  simp only [ParameterDraft.merge]
  split
  · exact he
  · simp [he, hq, ParameterDraft.mergeRole, Attempt.done]

theorem define (h : d.RolesOpen) {q : ParameterDraft} (hq : q.role = none) :
    (d.defineParameter q).draft.RolesOpen := by
  simp only [defineParameter]
  split
  · exact h
  · split
    · intro r hr
      rcases List.mem_append.mp hr with hr | hr
      · exact h r hr
      · rw [List.mem_singleton.mp hr]
        exact hq
    · rename_i existing he
      exact h.setParameter (merge (h existing (parameter?_eq_some he).1) hq)

theorem step {c : Command} (h : d.RolesOpen) (hc : c.Roleless) (hstep : GraphStep c d e) : e.RolesOpen := by
  cases hstep with
  | frame _ hparameters _ =>
      intro q hq
      exact h q (hparameters ▸ hq)
  | declare q hq => exact h.define (hc.declared hq)
  | sample p name value hp => exact h.setParameter (h p (parameter?_eq_some hp).1)

end RolesOpen

end PipelineDraft

theorem BookSection.apply_rolesOpen {s : BookSection} {limits : Script.Limits} {d : PipelineDraft}
    (hs : ∀ c, s.Gives c → c.Roleless) (hd : d.RolesOpen) (hok : (s.apply limits d).refusal = none) :
    (s.apply limits d).draft.RolesOpen := by
  obtain ⟨w, hw, hadd, hdraft⟩ := apply_accepted (J := fun w => w.pipeline.RolesOpen)
    (fun _ _ => hd) (fun c hc w hw _ => hw.step (hs c hc) (c.applyToTask_step w)) hok
  rw [hdraft]
  obtain ⟨-, hsame⟩ | ⟨t, u, -, -, e, rfl, hrun, hdraft⟩ := addTask_accepted hadd
  · rw [hsame]
    exact hw
  · rw [hdraft]
    exact Attempt.each_keeps (I := fun d => d.RolesOpen) (fun name _ d hd _ => hd.define rfl) hw hrun

theorem Book.assemble_rolesOpen {book : Book} {limits : Script.Limits} (h : book.DeclaresNoRole)
    (hok : (book.assemble limits).refusal = none) : (book.assemble limits).draft.RolesOpen := by
  refine assemble_keeps ?_ ?_ ?_ hok
  · intro q hq
    cases hq
  · intro line hline c hread d hd _
    refine hd.step (fun declaration hc => ?_) (c.applyToHead_step d)
    exact h.1 line hline declaration (hc ▸ hread)
  · intro s hs d hd
    refine BookSection.apply_rolesOpen (fun c hc => ?_) hd
    rcases hc with rfl | ⟨line, hline, hread⟩
    · intro declaration hc
      cases hc
    · intro declaration hc
      exact h.2 s hs line hline declaration (hc ▸ hread)

theorem Expectations.sound_empty : ({} : Expectations).Sound := by
  intro unit b hb
  cases unit <;> cases hb

theorem TaskDraft.expect_sound {d : TaskDraft} {sign : ExpectSign} {unit : ExpectUnit} {amount : UInt32}
    {e : Expectations} (h : d.expect sign unit amount = .ok e) (hd : d.expectations.Sound) : e.Sound := by
  exact expect_keeps h hd fun _ _ _ _ hcrossed => hcrossed

theorem Command.applyToTask_sound (c : Command) {w : Workpiece} (hw : w.task.expectations.Sound) :
    (c.applyToTask w).draft.task.expectations.Sound := by
  cases c with
  | expectAmount sign unit amount =>
      simp only [applyToTask, Workpiece.expect_eq, Attempt.ofResult]
      split
      · rename_i e he
        exact TaskDraft.expect_sound he hw
      · exact hw
  | expectFormat | foreach =>
      simp only [applyToTask, Attempt.ofResult]
      split <;> exact hw
  | persona name description =>
      simp only [applyToTask, Workpiece.setPersona]
      split <;> exact hw
  | sectionType type =>
      simp only [applyToTask, Workpiece.setType]
      split
      · exact hw
      · rw [(Workpiece.enacts _ type).task]
        exact hw
  | joker name =>
      simp only [applyToTask, Attempt.done]
      split <;> exact hw
  | parameter | model | postprocess | bookVersion | url | knowledge | formfactor | action | instrument => exact hw

def PipelineDraft.ExpectationsSound (d : PipelineDraft) : Prop := ∀ t ∈ d.tasks, t.expectations.Sound

theorem GraphStep.tasks_eq {c : Command} {d e : PipelineDraft} (h : GraphStep c d e) : e.tasks = d.tasks := by
  cases h with
  | frame _ _ htasks => exact htasks
  | declare q => exact d.defineParameter_tasks q
  | sample => rfl

theorem BookSection.apply_sound {s : BookSection} {limits : Script.Limits} {d : PipelineDraft}
    (hd : d.ExpectationsSound) (hok : (s.apply limits d).refusal = none) :
    (s.apply limits d).draft.ExpectationsSound := by
  obtain ⟨w, ⟨htasks, htask⟩, hadd, hdraft⟩ := apply_accepted
    (J := fun w => w.pipeline.tasks = d.tasks ∧ w.task.expectations.Sound)
    (fun task htask => ⟨rfl, by rw [(openDraft_ok htask).1]; exact Expectations.sound_empty⟩)
    (fun c _ w hw _ => ⟨(c.applyToTask_step w).tasks_eq.trans hw.1, c.applyToTask_sound hw.2⟩) hok
  rw [hdraft]
  obtain ⟨-, hsame⟩ | ⟨t, u, hbuild, hu, e, rfl, hrun, hdraft⟩ := addTask_accepted hadd
  · rw [hsame]
    intro t ht
    exact hd t (htasks ▸ ht)
  · obtain ⟨-, v, hv, -, hset⟩ := finishTask_ok hu
    obtain ⟨language, rfl⟩ := settleLanguage_ok hv
    obtain ⟨type, -, rfl⟩ := TaskDraft.build_eq_some hbuild
    have hkept := Attempt.each_keeps (I := fun d => d.tasks = w.pipeline.tasks)
      (fun name _ d hd _ => (d.defineParameter_tasks { name }).trans hd) rfl hrun
    intro x hx
    rw [hdraft] at hx
    rcases List.mem_append.mp hx with hx | hx
    · rw [hkept, htasks] at hx
      exact hd x hx
    · rw [List.mem_singleton.mp hx, hset]
      exact htask

theorem Book.assemble_sound {book : Book} {limits : Script.Limits}
    (hok : (book.assemble limits).refusal = none) : (book.assemble limits).draft.ExpectationsSound := by
  refine assemble_keeps ?_ ?_ (fun s _ d hd => BookSection.apply_sound hd) hok
  · intro t ht
    cases ht
  · intro _ _ c _ d hd _ t ht
    exact hd t ((c.applyToHead_step d).tasks_eq ▸ ht)

namespace PipelineDraft

theorem RolesOpen.roleOf {d : PipelineDraft} (h : d.RolesOpen) {q : ParameterDraft} (hq : q ∈ d.parameters) :
    d.roleOf q = if d.isTaskResult q.name then .output else .input := by
  have hdeclares (role : Role) : d.declares role = false := by
    rw [declares, List.any_eq_false]
    intro r hr
    simp [h r hr]
  simp only [PipelineDraft.roleOf, h q hq, hdeclares]
  cases d.isTaskResult q.name <;> simp

theorem RolesOpen.implicitRoles {d : PipelineDraft} (h : d.RolesOpen) (hd : d.names.Nodup) :
    d.resolveRoles.build.ImplicitRoles := by
  intro r hr
  simp only [resolveRoles_eq hd, build, List.map_map, List.mem_map, Function.comp_apply] at hr
  obtain ⟨q, hq, rfl⟩ := hr
  change (d.roleOf q = .input) ↔ ∀ t ∈ d.tasks, t.result ≠ some q.name
  rw [h.roleOf hq]
  by_cases hresult : d.isTaskResult q.name = true
  · obtain ⟨t, ht, hres⟩ := (d.isTaskResult_iff q.name).mp hresult
    simp only [hresult, if_true, reduceCtorEq, false_iff]
    exact fun hall => hall t ht hres
  · simp only [hresult, Bool.false_eq_true, if_false, true_iff]
    exact fun t ht hres => hresult ((d.isTaskResult_iff q.name).mpr ⟨t, ht, hres⟩)

end PipelineDraft

namespace Chatbot

theorem results_tasks (persona : String) : (tasks persona).filterMap Task.result =
    ["chatbotResponse", "conversationSummary", "title"] := rfl

theorem implicitRoles (persona : String) (p : Pipeline) (htasks : p.tasks = tasks persona)
    (hparameters : p.parameters = Formfactor.chatbot.parameters) : p.ImplicitRoles := by
  have hproduced (name : String) : (∀ t ∈ tasks persona, t.result ≠ some name) ↔
      name ∉ ["chatbotResponse", "conversationSummary", "title"] := by
    rw [← results_tasks persona, List.mem_filterMap]
    push Not
    rfl
  intro q hq
  rw [htasks, hproduced]
  rw [hparameters] at hq
  revert q
  decide

theorem sound (persona : String) : ∀ t ∈ tasks persona, t.expectations.Sound := by
  intro t ht
  simp only [tasks, List.mem_cons, List.not_mem_nil, or_false] at ht
  rcases ht with rfl | rfl | rfl
  · exact Expectations.sound_empty
  · intro unit b hb
    cases unit <;> cases hb
    decide
  · exact Expectations.sound_empty

end Chatbot

theorem Pipeline.applyAbstractions_cases (p : Pipeline) :
    (p.applyAbstractions.parameters = p.parameters ∧ p.applyAbstractions.tasks = p.tasks) ∨
      p.parameters = [] ∧ p.tasks = [] ∧ ∃ persona ∈ p.personas.head?,
        p.applyAbstractions.tasks = Chatbot.tasks persona.name ∧
          p.applyAbstractions.parameters = Formfactor.chatbot.parameters := by
  obtain ⟨htasks, hparameters, hpersonas⟩ := p.inferFormfactor_frame
  rw [applyAbstractions, scaffoldChatbot]
  split
  · exact Or.inl ⟨hparameters, htasks⟩
  · rename_i persona rest heq
    split
    · rename_i hbare
      simp only [isBare, Bool.and_eq_true, List.isEmpty_iff, hparameters, htasks] at hbare
      refine Or.inr ⟨hbare.1.2, hbare.2, persona, ?_, rfl, rfl⟩
      rw [← hpersonas, heq]
      rfl
    · exact Or.inl ⟨hparameters, htasks⟩

/-- The scaffold is the only way in which a finished pipeline comes by other parameters and tasks than its draft has. -/
theorem PipelineDraft.finish_cases (d : PipelineDraft) (options : Options) :
    ((d.finish options).parameters = d.resolveRoles.build.parameters ∧ (d.finish options).tasks = d.tasks) ∨
      options.abstractions = true ∧ d.parameters = [] ∧ d.tasks = [] ∧ ∃ persona ∈ d.personas.head?,
        (d.finish options).tasks = Chatbot.tasks persona.name ∧
          (d.finish options).parameters = Formfactor.chatbot.parameters := by
  simp only [finish]
  split
  · rename_i hon
    rcases d.resolveRoles.build.applyAbstractions_cases with hsame | ⟨hparameters, htasks, hscaffold⟩
    · exact Or.inl hsame
    · refine Or.inr ⟨hon, ?_, htasks, hscaffold⟩
      have hnames := d.names_resolveRoles
      rwa [hparameters, List.map_nil, eq_comm, names, List.map_eq_nil_iff] at hnames
  · exact Or.inl ⟨rfl, rfl⟩

/-- Where a book declares no roles, its pipeline passes validation if and only if no result has two
producers, all jokers can be checked and no task waits for itself. No other fault can arise. -/
theorem validate_iff_of_declaresNoRole (options : Options) (source : String) (book : Book) (p : Pipeline)
    (hbook : Book.read source = .ok book) (hroles : book.DeclaresNoRole)
    (hcompile : (compile options source).result = .ok p) :
    (p.validate = .ok () ↔ p.SingleProducers ∧ p.JokersChecked ∧ p.Acyclic) ∧
      ∀ fault, p.validate = .error fault →
        (∃ name first second, fault = .producedTwice name first second) ∧ ¬ p.SingleProducers ∨
        (∃ title, fault = .uncheckedJoker title) ∧ ¬ p.JokersChecked ∨
        (∃ waiting, fault = .unresolvable waiting) ∧ ¬ p.Acyclic := by
  obtain ⟨other, hread, hok, rfl, -⟩ := compile_ok hcompile
  rw [hbook, Except.ok.injEq] at hread
  subst hread
  have hclosed := (Book.assemble_closed hok).finish options
  have himplicit : ((book.assemble options.limits).draft.finish options).ImplicitRoles := by
    rcases PipelineDraft.finish_cases (book.assemble options.limits).draft options with
      ⟨hparameters, htasks⟩ | ⟨-, -, -, persona, -, htasks, hparameters⟩
    · have hopen := (Book.assemble_rolesOpen hroles hok).implicitRoles (Book.assemble_closed hok).names_nodup
      intro q hq
      rw [hparameters] at hq
      rw [htasks]
      exact hopen q hq
    · exact Chatbot.implicitRoles persona.name _ htasks hparameters
  have hsound : ∀ t ∈ ((book.assemble options.limits).draft.finish options).tasks, t.expectations.Sound := by
    rcases PipelineDraft.finish_cases (book.assemble options.limits).draft options with
      ⟨-, htasks⟩ | ⟨-, -, -, persona, -, htasks, -⟩
    · rw [htasks]
      exact Book.assemble_sound hok
    · rw [htasks]
      exact Chatbot.sound persona.name
  rcases Pipeline.validate_cases hclosed himplicit hsound with ⟨hvalid, h1, h2, h3⟩ |
    ⟨⟨name, first, second, hfault⟩, hnot⟩ | ⟨⟨title, hfault⟩, hnot⟩ | ⟨⟨waiting, hfault⟩, hnot⟩
  · simp [hvalid, h1, h2, h3]
  · rw [hfault]
    exact ⟨by simp [hnot], fun fault he => by cases he; exact Or.inl ⟨⟨name, first, second, rfl⟩, hnot⟩⟩
  · rw [hfault]
    exact ⟨by simp [hnot], fun fault he => by cases he; exact Or.inr (Or.inl ⟨⟨title, rfl⟩, hnot⟩)⟩
  · rw [hfault]
    exact ⟨by simp [hnot], fun fault he => by cases he; exact Or.inr (Or.inr ⟨⟨waiting, rfl⟩, hnot⟩)⟩

def circleBook : Book where
  head := { title := "T", description := none, commandLines := ["PARAM a"] }
  sections :=
    [{ title := "A", name := "a", description := none, content := "\x7bb\x7d", language := none
       result := some "a", commandLines := [] },
     { title := "B", name := "b", description := none, content := "\x7ba\x7d", language := none
       result := some "b", commandLines := [] }]
  source := "# T\n- PARAM a\n## A\n\x7bb\x7d\n-> \x7ba\x7d\n## B\n\x7ba\x7d\n-> \x7bb\x7d"

theorem circleBook_declaresNoRole : circleBook.DeclaresNoRole := by
  have hread : Registry.builtIn.read .head "PARAM a" = .ok (.parameter ⟨"a", none, false, false⟩) := by
    decide +kernel
  constructor
  · intro line hline d hd
    simp only [circleBook, List.mem_singleton] at hline
    rw [hline, hread] at hd
    cases hd
    exact ⟨rfl, rfl⟩
  · intro s hs line hline
    simp only [circleBook, List.mem_cons, List.not_mem_nil, or_false] at hs
    rcases hs with rfl | rfl <;> cases hline

theorem validate_iff_circleBook : ∃ p, (compile .unchecked circleBook.source).result = .ok p ∧
    (p.validate = .ok () ↔ p.SingleProducers ∧ p.JokersChecked ∧ p.Acyclic) := by
  have hbook : Book.read circleBook.source = .ok circleBook := by decide +kernel
  obtain ⟨p, hp⟩ := exists_of_isOk (r := (compile .unchecked circleBook.source).result) (by decide +kernel)
  exact ⟨p, hp, (validate_iff_of_declaresNoRole .unchecked _ circleBook p hbook circleBook_declaresNoRole hp).1⟩

end BookCompiler
