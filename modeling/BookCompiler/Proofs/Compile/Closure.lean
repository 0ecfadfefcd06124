import BookCompiler.Compile.Basic
import BookCompiler.Proofs.Command.Effect
import BookCompiler.Proofs.Compile.Roles
import BookCompiler.Proofs.Compile.Run
import BookCompiler.Proofs.Name.Order

namespace BookCompiler

theorem Task.withLoop_increasing (loop : Option Foreach) (names : List String)
    (h : names.Pairwise (· < ·)) : (withLoop loop names).Pairwise (· < ·) := by
  cases loop with
  | none => exact h
  | some f => exact Name.insert_increasing _ _ (h.filter _)

theorem Task.neededNames_ok {t : Task} {limits : Script.Limits} {names : List String}
    (h : t.neededNames limits = .ok names) :
    names.Pairwise (· < ·) ∧ ∀ name ∈ names, isReserved name = false := by
  simp only [neededNames, bind, Except.bind] at h
  split at h
  · cases h
  · simp only [pure, Except.pure, Except.ok.injEq] at h
    subst h
    refine ⟨(withLoop_increasing _ _ (Name.sorted_increasing _)).filter _, ?_⟩
    intro name hname
    simpa using (List.mem_filter.mp hname).2

/-- A task whose dependencies are what it needs, all of them and its result being declared. -/
structure Task.Settled (limits : Script.Limits) (names : List String) (t : Task) : Prop where
  found : t.neededNames limits = .ok t.dependencies
  declared : ∀ name ∈ t.usedNames, name ∈ names

/-- The parameter graph of a draft: nothing is named twice, no parameter has a reserved name, and
every task is settled. -/
structure PipelineDraft.Closed (limits : Script.Limits) (d : PipelineDraft) : Prop where
  names_nodup : d.names.Nodup
  names_free : ∀ name ∈ d.names, isReserved name = false
  tasks_nodup : (d.tasks.map Task.name).Nodup
  tasks_settled : ∀ t ∈ d.tasks, t.Settled limits d.names

namespace PipelineDraft.Closed

variable {limits : Script.Limits} {d e : PipelineDraft}

theorem of_names (h : d.Closed limits) (hnames : e.names = d.names) (htasks : e.tasks = d.tasks) :
    e.Closed limits := by
  constructor
  · rw [hnames]; exact h.names_nodup
  · rw [hnames]; exact h.names_free
  · rw [htasks]; exact h.tasks_nodup
  · rw [hnames, htasks]; exact h.tasks_settled

theorem define (h : d.Closed limits) (q : ParameterDraft) : (d.defineParameter q).draft.Closed limits := by
  refine ⟨nodup_names_defineParameter h.names_nodup q, ?_, ?_, ?_⟩
  · intro name hname
    rcases mem_names_defineParameter.mp hname with hold | ⟨hfree, rfl⟩
    · exact h.names_free name hold
    · exact hfree
  · rw [defineParameter_tasks]
    exact h.tasks_nodup
  · rw [defineParameter_tasks]
    intro t ht
    obtain ⟨hfound, hdeclared⟩ := h.tasks_settled t ht
    exact ⟨hfound, fun name hname => mem_names_defineParameter.mpr (Or.inl (hdeclared name hname))⟩

theorem step {c : Command} (h : d.Closed limits) (hstep : GraphStep c d e) : e.Closed limits := by
  cases hstep with
  | frame _ hparameters htasks => exact h.of_names (by simp [names, hparameters]) htasks
  | declare q => exact h.define q
  | sample p name value => exact h.of_names (names_setParameter d _) rfl

theorem addTask (h : d.Closed limits) {t : Task} (hnew : d.hasTask t.name = false)
    (ht : t.Settled limits d.names) : ({ d with tasks := d.tasks ++ [t] } : PipelineDraft).Closed limits := by
  constructor
  · exact h.names_nodup
  · exact h.names_free
  · simp only [hasTask, List.any_eq_false, beq_iff_eq] at hnew
    rw [List.map_append, List.nodup_append]
    refine ⟨h.tasks_nodup, by simp, ?_⟩
    intro a ha b hb hab
    obtain ⟨u, hu, rfl⟩ := List.mem_map.mp ha
    exact hnew u hu (by simpa [hab] using hb)
  · intro u hu
    rcases List.mem_append.mp hu with hu | hu
    · exact h.tasks_settled u hu
    · rw [List.mem_singleton.mp hu]
      exact ht

end PipelineDraft.Closed

namespace BookSection

variable {s : BookSection} {limits : Script.Limits}

theorem declareUsed_draft (s : BookSection) (state name : String) (d : PipelineDraft) :
    (s.declareUsed state name d).draft = (d.defineParameter { name }).draft := rfl

theorem mem_names_of_declareUsed {state name : String} {d : PipelineDraft}
    (h : (s.declareUsed state name d).refusal = none) : name ∈ (s.declareUsed state name d).draft.names :=
  PipelineDraft.mem_names_of_defineParameter (q := { name }) (by simpa [declareUsed, Attempt.mapRefusal] using h)

theorem addTask_closed {w : Workpiece} (hw : w.pipeline.Closed limits)
    (hok : (s.addTask limits w).refusal = none) : (s.addTask limits w).draft.Closed limits := by
  obtain ⟨-, hdraft⟩ | ⟨t, u, -, hu, e, he, hrun, hdraft⟩ := addTask_accepted hok
  · rw [hdraft]
    exact hw
  · obtain ⟨hnew, v, hv, hfound, hset⟩ := finishTask_ok hu
    obtain ⟨language, rfl⟩ := settleLanguage_ok hv
    have hname : u.name = t.name := by rw [hset]
    subst he
    have hkept : (Attempt.each (s.declareUsed w.task.snapshot) (u.dependencies ++ u.result.toList)
        w.pipeline).draft.Closed limits ∧ (Attempt.each (s.declareUsed w.task.snapshot)
        (u.dependencies ++ u.result.toList) w.pipeline).draft.tasks = w.pipeline.tasks :=
      Attempt.each_keeps (I := fun d => d.Closed limits ∧ d.tasks = w.pipeline.tasks)
        (fun name _ d hd _ => ⟨hd.1.define { name }, by rw [declareUsed_draft, d.defineParameter_tasks, hd.2]⟩)
        ⟨hw, rfl⟩ hrun
    rw [hdraft]
    refine hkept.1.addTask ?_ ⟨?_, ?_⟩
    · simpa [PipelineDraft.hasTask, hkept.2, hname] using hnew
    · rw [← hfound, hset]
      rfl
    · exact Attempt.each_establishes (P := fun name d => name ∈ d.names)
        (fun name _ d hd => mem_names_of_declareUsed hd)
        (fun name other d hd => by
          rw [declareUsed_draft, PipelineDraft.names_defineParameter]
          split
          · exact hd
          · exact List.mem_append_left _ hd) hrun

theorem apply_closed {d : PipelineDraft} (hd : d.Closed limits) (hok : (s.apply limits d).refusal = none) :
    (s.apply limits d).draft.Closed limits := by
  obtain ⟨w, hw, hadd, hdraft⟩ := apply_accepted (J := fun w => w.pipeline.Closed limits)
    (fun _ _ => hd) (fun c _ w hw _ => hw.step (c.applyToTask_step w)) hok
  rw [hdraft]
  exact addTask_closed hw hadd

end BookSection

theorem Book.assemble_closed {book : Book} {limits : Script.Limits}
    (hok : (book.assemble limits).refusal = none) : (book.assemble limits).draft.Closed limits := by
  refine assemble_keeps ?_ (fun _ _ c _ d hd _ => hd.step (c.applyToHead_step d))
    (fun s _ d hd => BookSection.apply_closed hd) hok
  constructor <;> simp [PipelineDraft.ofBook, PipelineDraft.names]

/-- The parameter graph of a pipeline is closed: nothing is named twice, all that a task mentions is
declared, no name is reserved, and the dependencies of a task are, in increasing order, the names
that an analysis of the finished task finds. -/
structure Pipeline.Closed (limits : Script.Limits) (p : Pipeline) : Prop where
  parameters_distinct : (p.parameters.map Parameter.name).Nodup
  tasks_distinct : (p.tasks.map Task.name).Nodup
  used_declared : ∀ t ∈ p.tasks, ∀ name ∈ t.usedNames, name ∈ p.parameters.map Parameter.name
  parameters_free : ∀ q ∈ p.parameters, isReserved q.name = false
  used_free : ∀ t ∈ p.tasks, ∀ name ∈ t.usedNames, isReserved name = false
  dependencies_increasing : ∀ t ∈ p.tasks, t.dependencies.Pairwise (· < ·)
  dependencies_found : ∀ t ∈ p.tasks, t.neededNames limits = .ok t.dependencies

theorem PipelineDraft.names_resolveRoles (d : PipelineDraft) :
    d.resolveRoles.build.parameters.map Parameter.name = d.names := by
  rw [← d.names_resolved]
  simp [build, names, ParameterDraft.build, Function.comp_def]

theorem PipelineDraft.Closed.build {limits : Script.Limits} {d : PipelineDraft} (h : d.Closed limits) :
    d.resolveRoles.build.Closed limits := by
  have hnames := d.names_resolveRoles
  constructor
  · rw [hnames]
    exact h.names_nodup
  · exact h.tasks_nodup
  · rw [hnames]
    exact fun t ht => (h.tasks_settled t ht).declared
  · intro q hq
    exact h.names_free q.name (hnames ▸ List.mem_map_of_mem hq)
  · exact fun t ht name hname => h.names_free name ((h.tasks_settled t ht).declared name hname)
  · exact fun t ht => (Task.neededNames_ok (h.tasks_settled t ht).found).1
  · exact fun t ht => (h.tasks_settled t ht).found

theorem Task.neededNames_plain {t : Task} (limits : Script.Limits) (htype : t.type ≠ .script)
    (hdescription : t.description = none) (hprepared : t.prepared = none) (hjokers : t.jokers = [])
    (hforeach : t.foreach = none) : t.neededNames limits =
      .ok ((Name.sorted (placeholders t.title ++ placeholders t.content)).filter (!isReserved ·)) := by
  have hcontent : t.contentNames limits = .ok (placeholders t.content) := by
    simp only [contentNames]
    split <;> simp_all
  simp [neededNames, hcontent, hdescription, hprepared, hjokers, hforeach, withLoop, bind, Except.bind, pure,
    Except.pure]

namespace Chatbot

theorem tasks_found (limits : Script.Limits) (persona : String) :
    ∀ t ∈ tasks persona, t.neededNames limits = .ok t.dependencies := by
  intro t ht
  simp only [tasks, List.mem_cons, List.not_mem_nil, or_false] at ht
  rcases ht with rfl | rfl | rfl
  · rw [Task.neededNames_plain limits (by simp [answer]) rfl rfl rfl rfl]
    exact congrArg Except.ok (by dsimp only [answer]; decide +kernel)
  · rw [Task.neededNames_plain limits (by simp [summary]) rfl rfl rfl rfl]
    exact congrArg Except.ok (by dsimp only [summary]; decide +kernel)
  · rw [Task.neededNames_plain limits (by simp [title]) rfl rfl rfl rfl]
    exact congrArg Except.ok (by decide +kernel)

theorem usedNames_tasks (persona : String) : (tasks persona).flatMap Task.usedNames =
    ["previousConversationSummary", "userMessage", "chatbotResponse", "chatbotResponse", "userMessage",
      "conversationSummary", "conversationSummary", "title"] := rfl

theorem names_tasks (persona : String) :
    (tasks persona).map Task.name = ["create-an-answer", "summarize-the-conversation", "title"] := rfl

theorem used_declared (persona : String) : ∀ t ∈ tasks persona, ∀ name ∈ t.usedNames,
    name ∈ Formfactor.chatbot.parameters.map Parameter.name := by
  intro t ht name hname
  have hmem : name ∈ (tasks persona).flatMap Task.usedNames := List.mem_flatMap.mpr ⟨t, ht, hname⟩
  rw [usedNames_tasks] at hmem
  clear hname
  revert name
  decide

theorem names_free : ∀ q ∈ Formfactor.chatbot.parameters, isReserved q.name = false := by
  decide

theorem closed (limits : Script.Limits) (persona : String) (p : Pipeline) (htasks : p.tasks = tasks persona)
    (hparameters : p.parameters = Formfactor.chatbot.parameters) : p.Closed limits := by
  constructor
  · rw [hparameters]
    decide
  · rw [htasks, names_tasks]
    decide
  · rw [htasks, hparameters]
    exact used_declared persona
  · rw [hparameters]
    exact names_free
  · rw [htasks]
    intro t ht name hname
    obtain ⟨q, hq, rfl⟩ := List.mem_map.mp (used_declared persona t ht name hname)
    exact names_free q hq
  · rw [htasks]
    exact fun t ht => (Task.neededNames_ok (tasks_found limits persona t ht)).1
  · rw [htasks]
    exact tasks_found limits persona

end Chatbot

namespace Pipeline

variable {limits : Script.Limits} {p : Pipeline}

theorem Closed.of_graph {q : Pipeline} (h : p.Closed limits) (hparameters : q.parameters = p.parameters)
    (htasks : q.tasks = p.tasks) : q.Closed limits := by
  obtain ⟨h1, h2, h3, h4, h5, h6, h7⟩ := h
  constructor <;> simp only [hparameters, htasks] <;> assumption

theorem inferFormfactor_frame (p : Pipeline) :
    p.inferFormfactor.tasks = p.tasks ∧ p.inferFormfactor.parameters = p.parameters ∧
      p.inferFormfactor.personas = p.personas := by
  rw [inferFormfactor]
  split <;> exact ⟨rfl, rfl, rfl⟩

/-- The scaffold leaves a pipeline as it is, unless it makes a chatbot of a persona and nothing else. -/
theorem scaffoldChatbot_cases (p : Pipeline) :
    p.scaffoldChatbot = p ∨
      ∃ persona, p.parameters = [] ∧ p.tasks = [] ∧ p.scaffoldChatbot.tasks = Chatbot.tasks persona ∧
        p.scaffoldChatbot.parameters = Formfactor.chatbot.parameters := by
  simp only [scaffoldChatbot]
  split
  · exact Or.inl rfl
  · rename_i persona rest _
    split
    · rename_i hbare
      simp only [isBare, Bool.and_eq_true, List.isEmpty_iff] at hbare
      exact Or.inr ⟨persona.name, hbare.1.2, hbare.2, rfl, rfl⟩
    · exact Or.inl rfl

theorem Closed.abstractions (h : p.Closed limits) : p.applyAbstractions.Closed limits := by
  have hinferred := h.of_graph p.inferFormfactor_frame.2.1 p.inferFormfactor_frame.1
  rcases p.inferFormfactor.scaffoldChatbot_cases with hsame | ⟨persona, -, -, htasks, hparameters⟩
  · rw [applyAbstractions, hsame]
    exact hinferred
  · exact Chatbot.closed limits persona _ htasks hparameters

end Pipeline

theorem PipelineDraft.Closed.finish {limits : Script.Limits} {d : PipelineDraft} (h : d.Closed limits)
    (options : Options) : (d.finish options).Closed limits := by
  simp only [PipelineDraft.finish]
  split
  · exact h.build.abstractions.of_graph rfl rfl
  · exact h.build.of_graph rfl rfl

/-- Whatever the book and the options, the parameter graph of a compiled pipeline is closed. -/
theorem compile_closed (options : Options) (source : String) (p : Pipeline)
    (h : (compile options source).result = .ok p) : p.Closed options.limits := by
  obtain ⟨book, -, hok, rfl, -⟩ := compile_ok h
  exact (Book.assemble_closed hok).finish options

theorem compile_closed_script : ∃ p, (compile {} ("# T\n## A\n- SCRIPT\n```js\nx+y\n```\n-> \x7bz\x7d")).result = .ok p ∧
    p.Closed (Options.limits {}) := by
  obtain ⟨p, hp⟩ := exists_of_isOk (r := (compile {} ("# T\n## A\n- SCRIPT\n```js\nx+y\n```\n-> \x7bz\x7d")).result)
    (by decide +kernel)
  exact ⟨p, hp, compile_closed {} _ p hp⟩

end BookCompiler
