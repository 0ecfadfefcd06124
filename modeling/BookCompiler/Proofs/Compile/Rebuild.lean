import BookCompiler.Proofs.Command.ReadBack
import BookCompiler.Proofs.Compile.Made
import BookCompiler.Proofs.Markdown.Volume

namespace BookCompiler

open Attempt

theorem applyCommand_yields {c : WrittenCommand} {w v : Workpiece} (hplace : c.command.kind.usableIn .task = true)
    (h : (c.command.applyToTask w).Yields v) : (Workpiece.applyCommand c w).Yields v := by
  have hrefusal : c.command.kind.refusal? .task c.command = none := by
    simp [CommandKind.refusal?, hplace]
  simp only [Workpiece.applyCommand, owner?_builtIn, CommandKind.applyToTask, hrefusal]
  exact h.mapRefusal _

theorem applyHeadCommand_yields {c : WrittenCommand} {d e : PipelineDraft}
    (hplace : c.command.kind.usableIn .head = true) (h : (c.command.applyToHead d).Yields e) :
    (PipelineDraft.applyHeadCommand c d).Yields e := by
  have hrefusal : c.command.kind.refusal? .head c.command = none := by
    simp [CommandKind.refusal?, hplace]
  simp only [PipelineDraft.applyHeadCommand, owner?_builtIn, CommandKind.applyToHead, hrefusal]
  exact h.mapRefusal _

theorem readCommands_of_read {place : Place} {cs : List WrittenCommand}
    (h : ∀ c ∈ cs, Registry.builtIn.read place c.line = .ok c.command) :
    (readCommands place (cs.map WrittenCommand.line)).1 = .ok cs :=
  readCommands_ok_iff.mpr ⟨rfl, h⟩

theorem PipelineDraft.applyHead_yields {cs : List WrittenCommand} {d e : PipelineDraft}
    (hread : ∀ c ∈ cs, Registry.builtIn.read .head c.line = .ok c.command)
    (hplace : ∀ c ∈ cs, c.command.kind.usableIn .head = true)
    (h : (each Command.applyToHead (cs.map WrittenCommand.command) d).Yields e) :
    (d.applyHead (cs.map WrittenCommand.line)).Yields e := by
  have hcs := readCommands_of_read hread
  rw [applyHead]
  split
  · rename_i e notices heq
    rw [heq] at hcs
    cases hcs
  · rename_i cs' notices heq
    rw [heq] at hcs
    cases hcs
    exact Yields.andThen ⟨rfl, rfl⟩ (h.each_of_map fun c hc _ _ => applyHeadCommand_yields (hplace c hc))

namespace BookSection

variable {s : BookSection} {limits : Script.Limits} {d : PipelineDraft} {task : TaskDraft}

/-- A section is applied by running the commands that its lines are read as. -/
theorem apply_eq_run (limits : Script.Limits) (cs : List WrittenCommand) (d : PipelineDraft)
    (hopen : s.openDraft = .ok task) (hlines : s.commandLines = cs.map WrittenCommand.line)
    (hread : ∀ c ∈ cs, Registry.builtIn.read .task c.line = .ok c.command)
    (htype : cs.any (fun c => c.command.kind = .sectionType) = true) :
    ∃ notices, s.apply limits d =
      ({ draft := (each Workpiece.applyCommand cs ⟨task, d⟩).draft.pipeline
         refusal := (each Workpiece.applyCommand cs ⟨task, d⟩).refusal
         notices } : Attempt CompileError PipelineDraft).andThen fun _ =>
        s.addTask limits (each Workpiece.applyCommand cs ⟨task, d⟩).draft := by
  have hcs := readCommands_of_read hread
  have hcommands : withSectionType cs = cs := by rw [withSectionType, if_pos htype]
  rw [← hlines] at hcs
  rw [apply, hopen]
  dsimp only
  split
  · rename_i e notices heq
    rw [heq] at hcs
    cases hcs
  · rename_i cs' notices heq
    rw [heq] at hcs
    cases hcs
    rw [hcommands]
    exact ⟨_, rfl⟩

theorem apply_yields (cs : List WrittenCommand) {w : Workpiece} {e : PipelineDraft} (hopen : s.openDraft = .ok task)
    (hlines : s.commandLines = cs.map WrittenCommand.line)
    (hread : ∀ c ∈ cs, Registry.builtIn.read .task c.line = .ok c.command)
    (hplace : ∀ c ∈ cs, c.command.kind.usableIn .task = true)
    (htype : cs.any (fun c => c.command.kind = .sectionType) = true)
    (hrun : (each Command.applyToTask (cs.map WrittenCommand.command) ⟨task, d⟩).Yields w)
    (hadd : (s.addTask limits w).Yields e) : (s.apply limits d).Yields e := by
  obtain ⟨hok, hdraft⟩ := hrun.each_of_map (g := Workpiece.applyCommand) fun c hc _ _ => applyCommand_yields (hplace c hc)
  obtain ⟨notices, heq⟩ := apply_eq_run limits cs d hopen hlines hread htype
  rw [heq, hok, hdraft]
  exact Yields.andThen ⟨rfl, rfl⟩ hadd

theorem apply_typed {line : String} {type : SectionType} {e : PipelineDraft} (hopen : s.openDraft = .ok task)
    (hline : s.commandLines = [line]) (hread : Registry.builtIn.read .task line = .ok (.sectionType type))
    (hfresh : task.sectionType = none) (htype : type.taskType = none)
    (h : ((Workpiece.mk { task with sectionType := some type } d).enact type).Yields
      ⟨{ task with sectionType := some type }, e⟩) : (s.apply limits d).Yields e := by
  have hrun : (each Command.applyToTask [.sectionType type] ⟨task, d⟩).Yields
      ⟨{ task with sectionType := some type }, e⟩ := by
    apply yields_each_singleton
    rw [Command.applyToTask, Workpiece.setType, hfresh]
    exact h
  apply apply_yields [⟨line, .sectionType type⟩] hopen hline (by simpa using hread)
    (by simp [Command.kind, CommandKind.usableIn, CommandKind.places]) (by simp [Command.kind]) hrun
  have hbuild : ({ task with sectionType := some type } : TaskDraft).build = none := by
    simp [TaskDraft.build, htype]
  rw [addTask]
  dsimp only
  rw [hbuild]
  exact yields_done _

theorem enact_accepted_of_apply {line : String} {type : SectionType} (hopen : s.openDraft = .ok task)
    (hline : s.commandLines = [line]) (hread : Registry.builtIn.read .task line = .ok (.sectionType type))
    (hfresh : task.sectionType = none) (hok : (s.apply limits d).refusal = none) :
    ((Workpiece.mk { task with sectionType := some type } d).enact type).refusal = none := by
  obtain ⟨notices, heq⟩ := apply_eq_run limits [⟨line, .sectionType type⟩] d hopen hline
    (by simpa using hread) (by simp [Command.kind])
  rw [heq] at hok
  obtain ⟨hrun, -⟩ := (andThen_accepted _ _).mp hok
  obtain ⟨hcommand, -⟩ := (andThen_accepted _ _).mp hrun
  have haccepted := (Workpiece.applyCommand_accepted hcommand).1
  rw [Command.applyToTask, Workpiece.setType, hfresh] at haccepted
  exact haccepted

end BookSection

namespace PipelineDraft

def use (d : PipelineDraft) (name : String) : PipelineDraft :=
  if name ∈ d.names then d else { d with parameters := d.parameters ++ [{ name }] }

theorem merge_blank (q : ParameterDraft) (name : String) : (q.merge { name }).Yields q := by
  obtain ⟨qname, description, role, examples⟩ := q
  cases description <;> cases role <;> simp [ParameterDraft.merge, ParameterDraft.mergeDescription,
    ParameterDraft.mergeRole, Yields, done]

theorem defineParameter_blank {d : PipelineDraft} {name : String} (hfree : isReserved name = false) :
    (d.defineParameter { name }).Yields (d.use name) := by
  rw [use]
  split
  · rename_i hmem
    cases hq : d.parameter? name with
    | none => exact absurd hmem ((d.parameter?_eq_none name).mp hq)
    | some q =>
        have hmerge := (merge_blank q name).map d.setParameter
        rw [setParameter_self hq] at hmerge
        simpa [defineParameter, hfree, hq] using hmerge
  · rename_i hnew
    exact defineParameter_new hfree hnew

theorem each_declareUsed {s : BookSection} {state : String} {names : List String} {d : PipelineDraft}
    (hfree : ∀ name ∈ names, isReserved name = false) :
    (each (s.declareUsed state) names d).Yields (names.foldl use d) := by
  induction names generalizing d with
  | nil => exact yields_each_nil _ d
  | cons name names ih =>
      obtain ⟨hname, hnames⟩ := List.forall_mem_cons.mp hfree
      exact yields_each_cons ((defineParameter_blank hname).mapRefusal _) (ih hnames)

theorem foldl_use_frame (names : List String) (d : PipelineDraft) :
    names.foldl use d = { d with parameters := (names.foldl use d).parameters } := by
  induction names generalizing d with
  | nil => rfl
  | cons name names ih =>
      rw [List.foldl_cons, ih, use]
      split <;> rfl

/-- A draft after a task has been added with all it uses. -/
def restoreTask (d : PipelineDraft) (t : Task) : PipelineDraft :=
  { t.usedNames.foldl use (d.greet t.persona) with tasks := d.tasks ++ [t] }

end PipelineDraft

namespace Task

/-- The section that a task is written as. -/
def sheet (t : Task) : Markdown.Sheet where
  title := t.title
  commandLines := t.commandLines
  description := t.description
  language := if t.type = .script then t.language else none
  content := t.content
  result := t.result

theorem blocks_eq (t : Task) : t.blocks = t.sheet.write := rfl

theorem commandLines_eq (t : Task) : t.commandLines = t.commands.map Command.write := by
  rw [commandLines, commands, List.map_flatMap]
  congr 1
  funext kind
  exact CommandKind.filterMap_write? fun _ hc => kind_of_mem_takeFromTask hc

variable {t : Task} {limits : Script.Limits} {d : PipelineDraft}

theorem Made.sheet_language (h : t.Made) : t.sheet.language = t.language := by
  rcases h.language with ⟨htype, -⟩ | ⟨htype, hnone⟩
  · exact if_pos htype
  · rw [hnone]
    exact if_neg htype

theorem Made.openDraft (h : t.Made) : t.sheet.toSection.openDraft = .ok t.blank := by
  have hdraft : t.sheet.toSection.draft = { t.blank with result := none } := by
    rw [BookSection.draft]
    simp only [Markdown.Sheet.toSection, h.sheet_language]
    simp only [sheet, blank, ← h.name]
  have hresult : t.sheet.toSection.result = t.result := rfl
  rw [BookSection.openDraft, hresult, hdraft]
  cases hr : t.result with
  | none => simp [blank, hr]
  | some name => simp [Name.readReference_self (h.result name hr), blank, hr]

theorem Made.settleLanguage (h : t.Made) (s : BookSection) (state : String) (dependencies : List String) :
    s.settleLanguage state { t with dependencies } = .ok { t with dependencies } := by
  rw [BookSection.settleLanguage]
  rcases h.language with ⟨htype, l, hl⟩ | ⟨htype, hnone⟩
  · have htag : Script.Language.ofTag? l.name = some l := by cases l <;> decide
    simp [htype, hl, htag]
  · simp [htype, hnone]

theorem Made.finishTask (h : t.Made) (s : BookSection) (state : String) (hnew : d.hasTask t.name = false)
    (hfound : t.neededNames limits = .ok t.dependencies) :
    s.finishTask limits state d { t with dependencies := [] } = .ok t := by
  have hneeded : ({ t with dependencies := [] } : Task).neededNames limits = .ok t.dependencies := hfound
  rw [BookSection.finishTask]
  simp only [hnew, Bool.false_eq_true, if_false, h.settleLanguage, bind, Except.bind, hneeded]

theorem Made.addTask_toDraft (h : t.Made) (s : BookSection) (hnew : d.hasTask t.name = false)
    (hfound : t.neededNames limits = .ok t.dependencies)
    (hfree : ∀ name ∈ t.usedNames, isReserved name = false) :
    (s.addTask limits ⟨t.toDraft, d.greet t.persona⟩).Yields (d.restoreTask t) := by
  have hgreet := d.sameGraph_greet t.persona
  have hbuild : t.toDraft.build = some { t with dependencies := [] } := by
    rw [h.rebuildable.build_toDraft, ← h.prepared]
  have hhas : (d.greet t.persona).hasTask t.name = false := by
    rw [PipelineDraft.hasTask, hgreet.tasks]
    exact hnew
  rw [BookSection.addTask]
  simp only [hbuild, h.finishTask s t.toDraft.snapshot hhas hfound]
  refine (PipelineDraft.each_declareUsed hfree).andThen ?_
  rw [PipelineDraft.restoreTask, ← hgreet.tasks, PipelineDraft.foldl_use_frame]
  exact yields_done _

/-- A written task is added again as it was, with all that it uses. -/
theorem Made.apply_sheet (h : t.Made) (hspelled : ∀ c ∈ t.commands, c.Spelled)
    (hnew : d.hasTask t.name = false) (hfound : t.neededNames limits = .ok t.dependencies)
    (hfree : ∀ name ∈ t.usedNames, isReserved name = false) :
    (t.sheet.toSection.apply limits d).Yields (d.restoreTask t) := by
  let cs : List WrittenCommand := t.commands.map fun c => ⟨c.write, c⟩
  have hlines : t.sheet.toSection.commandLines = cs.map WrittenCommand.line := by
    rw [List.map_map]
    exact t.commandLines_eq
  have hcommands : cs.map WrittenCommand.command = t.commands := by
    rw [List.map_map]
    exact List.map_id t.commands
  have hread : ∀ c ∈ cs, Registry.builtIn.read .task c.line = .ok c.command := by
    intro w hw
    obtain ⟨c, hc, rfl⟩ := List.mem_map.mp hw
    exact (Registry.read_write (h.commands c hc) (hspelled c hc) (usableIn_of_mem_commands hc)).read
  have hplace : ∀ c ∈ cs, c.command.kind.usableIn .task = true := by
    intro w hw
    obtain ⟨c, hc, rfl⟩ := List.mem_map.mp hw
    exact usableIn_of_mem_commands hc
  have htype : cs.any (fun c => c.command.kind = .sectionType) = true := by
    rw [List.any_eq_true]
    refine ⟨⟨_, .sectionType (.ofTaskType t.type)⟩, List.mem_map_of_mem ?_, rfl⟩
    rw [commands_eq]
    simp
  have hrun := h.rebuildable.each_commands d
  rw [← hcommands] at hrun
  exact BookSection.apply_yields cs h.openDraft hlines hread hplace htype hrun (h.addTask_toDraft _ hnew hfound hfree)

end Task

def knowledgeSheet (content : String) : Markdown.Sheet where
  title := "Knowledge"
  commandLines := ["KNOWLEDGE SECTION"]
  content := content

theorem knowledgeBlocks_eq (content : String) : knowledgeBlocks content = (knowledgeSheet content).write := by
  simp [knowledgeBlocks, Markdown.Sheet.write, knowledgeSheet, listBlock, bulletList]

def sampleSheet (name value : String) : Markdown.Sheet where
  title := "Example"
  commandLines := ["EXAMPLE SECTION"]
  content := value
  result := some name

theorem Parameter.sampleBlocks_eq (q : Parameter) :
    q.sampleBlocks = (q.examples.map (sampleSheet q.name)).flatMap Markdown.Sheet.write := by
  rw [sampleBlocks, List.flatMap_map]
  congr 1

variable {limits : Script.Limits} {d : PipelineDraft}

theorem apply_knowledgeSheet {content : String} (hcontent : (Text.trim content.toList).isEmpty = false) :
    ((knowledgeSheet content).toSection.apply limits d).Yields (d.addKnowledge content) := by
  refine BookSection.apply_typed rfl rfl (sectionLine_readBack .knowledge).read rfl rfl ?_
  have hblank : TaskDraft.isBlank
      { (knowledgeSheet content).toSection.draft with sectionType := some .knowledge } = false := hcontent
  simp only [Workpiece.enact, hblank]
  exact yields_done _

namespace PipelineDraft

def addExample (d : PipelineDraft) (name value : String) : PipelineDraft :=
  { d with
    parameters := d.parameters.map fun q => if q.name = name then { q with examples := q.examples ++ [value] } else q }

theorem replaceFirst_eq_map {ps : List ParameterDraft} (hnodup : (ps.map ParameterDraft.name).Nodup)
    {q : ParameterDraft} (hq : q ∈ ps) (f : ParameterDraft → ParameterDraft) :
    replaceFirst (fun p => p.name == q.name) (f q) ps = ps.map fun p => if p.name = q.name then f p else p := by
  induction ps with
  | nil => cases hq
  | cons p ps ih =>
      obtain ⟨hp, hrest⟩ := List.nodup_cons.mp hnodup
      rw [replaceFirst, List.map_cons]
      by_cases hname : p.name = q.name
      · have hsame : ∀ x ∈ ps, x.name ≠ q.name := fun x hx e => hp (hname ▸ e ▸ List.mem_map_of_mem hx)
        have hpq : p = q := by
          rcases List.mem_cons.mp hq with rfl | hq
          · rfl
          · exact absurd rfl (hsame q hq)
        have hmap : (ps.map fun x => if x.name = q.name then f x else x) = ps := by
          rw [List.map_congr_left fun x hx => if_neg (hsame x hx), List.map_id']
        rw [hmap, hpq]
        simp
      · have hqs : q ∈ ps := (List.mem_cons.mp hq).resolve_left fun e => hname (congrArg _ e.symm)
        simp [hname, ih hrest hqs]

theorem setParameter_example {q : ParameterDraft} (hnodup : d.names.Nodup) (hq : q ∈ d.parameters) (value : String) :
    d.setParameter { q with examples := q.examples ++ [value] } = d.addExample q.name value := by
  rw [setParameter, addExample]
  exact congrArg (fun parameters => { d with parameters })
    (replaceFirst_eq_map hnodup hq fun p => { p with examples := p.examples ++ [value] })

theorem names_addExample (d : PipelineDraft) (name value : String) : (d.addExample name value).names = d.names := by
  rw [names, addExample, List.map_map]
  apply List.map_congr_left
  intro q _
  dsimp only [Function.comp]
  split <;> rfl

end PipelineDraft

theorem openDraft_sampleSheet {name value : String} (hname : Name.Valid name) :
    (sampleSheet name value).toSection.openDraft =
      .ok { (sampleSheet name value).toSection.draft with result := some name } := by
  have hresult : (sampleSheet name value).toSection.result = some name := rfl
  rw [BookSection.openDraft, hresult]
  dsimp only
  rw [Name.readReference_self hname]

theorem apply_sampleSheet {name value : String} (hname : Name.Valid name) (hnodup : d.names.Nodup)
    (hmem : name ∈ d.names) (hvalue : (Text.trim value.toList).isEmpty = false) :
    ((sampleSheet name value).toSection.apply limits d).Yields (d.addExample name value) := by
  refine BookSection.apply_typed (openDraft_sampleSheet hname) rfl exampleLine_readBack.read rfl rfl ?_
  have hblank : TaskDraft.isBlank { (sampleSheet name value).toSection.draft with
      result := some name, sectionType := some .sample } = false := hvalue
  cases hq : d.parameter? name with
  | none => exact absurd hmem ((d.parameter?_eq_none name).mp hq)
  | some q =>
      obtain ⟨hqmem, rfl⟩ := PipelineDraft.parameter?_eq_some hq
      rw [← PipelineDraft.setParameter_example hnodup hqmem value]
      simp only [Workpiece.enact, hblank, Workpiece.addSample, hq]
      exact yields_done _

theorem mem_names_of_apply_sampleSheet {name value : String} (hname : Name.Valid name)
    (hok : ((sampleSheet name value).toSection.apply limits d).refusal = none) : name ∈ d.names := by
  have haccepted := BookSection.enact_accepted_of_apply (openDraft_sampleSheet hname) rfl exampleLine_readBack.read rfl hok
  by_contra hmem
  simp only [Workpiece.enact, Workpiece.addSample, (d.parameter?_eq_none name).mpr hmem] at haccepted
  split at haccepted <;> cases haccepted

theorem each_tasks {ts : List Task} (hmade : ∀ t ∈ ts, t.Made) (hspelled : ∀ t ∈ ts, ∀ c ∈ t.commands, c.Spelled)
    (hnodup : ((d.tasks ++ ts).map Task.name).Nodup)
    (hfound : ∀ t ∈ ts, t.neededNames limits = .ok t.dependencies)
    (hfree : ∀ t ∈ ts, ∀ name ∈ t.usedNames, isReserved name = false) :
    (each (BookSection.apply limits) (ts.map fun t => t.sheet.toSection) d).Yields
      (ts.foldl PipelineDraft.restoreTask d) := by
  induction ts generalizing d with
  | nil => exact yields_each_nil _ d
  | cons t ts ih =>
      obtain ⟨hmade, hmades⟩ := List.forall_mem_cons.mp hmade
      obtain ⟨hspelled, hspelleds⟩ := List.forall_mem_cons.mp hspelled
      obtain ⟨hfound, hfounds⟩ := List.forall_mem_cons.mp hfound
      obtain ⟨hfree, hfrees⟩ := List.forall_mem_cons.mp hfree
      have hnew : d.hasTask t.name = false := by
        rw [List.map_append, List.nodup_append] at hnodup
        rw [PipelineDraft.hasTask, List.any_eq_false]
        intro u hu hname
        exact hnodup.2.2 u.name (List.mem_map_of_mem hu) t.name List.mem_cons_self (by simpa using hname)
      rw [List.append_cons] at hnodup
      exact yields_each_cons (hmade.apply_sheet hspelled hnew hfound hfree) (ih hmades hspelleds hnodup hfounds hfrees)

theorem each_knowledgeSheets {contents : List String}
    (h : ∀ content ∈ contents, (Text.trim content.toList).isEmpty = false) :
    (each (BookSection.apply limits) (contents.map fun content => (knowledgeSheet content).toSection) d).Yields
      (contents.foldl PipelineDraft.addKnowledge d) := by
  induction contents generalizing d with
  | nil => exact yields_each_nil _ d
  | cons content contents ih =>
      obtain ⟨hcontent, hcontents⟩ := List.forall_mem_cons.mp h
      exact yields_each_cons (apply_knowledgeSheet hcontent) (ih hcontents)

theorem each_sampleSheets {samples : List (String × String)} (hvalid : ∀ x ∈ samples, Name.Valid x.1)
    (hvalue : ∀ x ∈ samples, (Text.trim x.2.toList).isEmpty = false) (hnodup : d.names.Nodup)
    (hmem : ∀ x ∈ samples, x.1 ∈ d.names) :
    (each (BookSection.apply limits) (samples.map fun x => (sampleSheet x.1 x.2).toSection) d).Yields
      (samples.foldl (fun d x => d.addExample x.1 x.2) d) := by
  induction samples generalizing d with
  | nil => exact yields_each_nil _ d
  | cons x samples ih =>
      obtain ⟨hvalid, hvalids⟩ := List.forall_mem_cons.mp hvalid
      obtain ⟨hvalue, hvalues⟩ := List.forall_mem_cons.mp hvalue
      obtain ⟨hmem, hmems⟩ := List.forall_mem_cons.mp hmem
      have hnames := d.names_addExample x.1 x.2
      refine yields_each_cons (apply_sampleSheet hvalid hnodup hmem hvalue) (ih hvalids hvalues ?_ ?_)
      · rwa [hnames]
      · rwa [hnames]

theorem mem_names_of_each_sampleSheets {samples : List (String × String)} (hvalid : ∀ x ∈ samples, Name.Valid x.1)
    (hvalue : ∀ x ∈ samples, (Text.trim x.2.toList).isEmpty = false) (hnodup : d.names.Nodup)
    (hok : (each (BookSection.apply limits) (samples.map fun x => (sampleSheet x.1 x.2).toSection) d).refusal = none) :
    ∀ x ∈ samples, x.1 ∈ d.names := by
  induction samples generalizing d with
  | nil =>
      intro x hx
      cases hx
  | cons x samples ih =>
      obtain ⟨hvalid, hvalids⟩ := List.forall_mem_cons.mp hvalid
      obtain ⟨hvalue, hvalues⟩ := List.forall_mem_cons.mp hvalue
      obtain ⟨hfirst, hrest⟩ := (andThen_accepted _ _).mp hok
      have hmem := mem_names_of_apply_sampleSheet hvalid hfirst
      have hnames := d.names_addExample x.1 x.2
      rw [(apply_sampleSheet hvalid hnodup hmem hvalue).2] at hrest
      have hmems := ih hvalids hvalues (by rwa [hnames]) hrest
      rw [hnames] at hmems
      exact List.forall_mem_cons.mpr ⟨hmem, hmems⟩

end BookCompiler
