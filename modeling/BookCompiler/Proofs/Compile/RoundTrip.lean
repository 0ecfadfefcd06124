import BookCompiler.Proofs.Compile.Abstraction
import BookCompiler.Proofs.Compile.Legible

namespace BookCompiler

open Attempt Markdown Text

namespace Pipeline

variable {p : Pipeline} {limits : Script.Limits}

theorem firstLines_cover (h : p.Made) (hlegible : p.Legible) :
    p.cover.firstLines = p.headCommands.map fun c => c.opening.write := by
  rw [Cover.firstLines, Cover.items, cover, headLines_eq, List.map_map, List.map_map]
  apply List.map_congr_left
  intro c hc
  have hphrase := ((hlegible.head c hc).readsBack (h.head c hc) (usableIn_of_mem_headCommands hc)).isPhrase
  dsimp only [Function.comp]
  rw [Command.first_ofText_write hphrase, String.ofList_toList]

theorem applyHead_cover (h : p.Made) (hlegible : p.Legible) (hclosed : p.Closed limits) (title : String)
    (description : Option String) (sources : List Source) :
    (PipelineDraft.applyHead p.cover.firstLines { title, description, sources }).Yields
      (p.restoreHead { title, description, sources }) := by
  let cs : List WrittenCommand := p.headCommands.map fun c => ⟨c.opening.write, c.opening⟩
  have hlines : p.cover.firstLines = cs.map WrittenCommand.line := by
    rw [firstLines_cover h hlegible, List.map_map]
    rfl
  have hcommands : cs.map WrittenCommand.command = p.headCommands.map Command.opening := by
    rw [List.map_map]
    rfl
  have hrun := each_headCommands hclosed.parameters_free hclosed.parameters_distinct title description sources
  rw [← hcommands] at hrun
  rw [hlines]
  apply PipelineDraft.applyHead_yields _ _ hrun
  · intro w hw
    obtain ⟨c, hc, rfl⟩ := List.mem_map.mp hw
    exact ((hlegible.head c hc).readsBack (h.head c hc) (usableIn_of_mem_headCommands hc)).read
  · intro w hw
    obtain ⟨c, hc, rfl⟩ := List.mem_map.mp hw
    rw [Command.kind_opening]
    exact usableIn_of_mem_headCommands hc

theorem restoreHead_tasks (p : Pipeline) (d : PipelineDraft) : (p.restoreHead d).tasks = d.tasks :=
  (p.restoreHead_graph d).2.1

theorem not_blank_of_mem_longKnowledge (h : p.Made) {content : String} (hc : content ∈ p.longKnowledge) :
    (Text.trim content.toList).isEmpty = false := by
  rw [(trimmed_of_mem_longKnowledge h hc).trim_eq]
  have hfeed := (List.mem_filter.mp hc).2
  cases hlist : content.toList with
  | nil => simp [hasLineFeed, hlist] at hfeed
  | cons c cs => rfl

theorem not_blank_of_mem_samples (h : p.Made) {x : String × String} (hx : x ∈ p.samples) :
    (Text.trim x.2.toList).isEmpty = false := by
  have hpassage := trimmed_of_mem_samples h hx
  rw [hpassage.trimmed.trim_eq]
  simpa using hpassage.ne_nil

theorem each_sections (h : p.Made) (hlegible : p.Legible) (hclosed : p.Closed limits)
    {d : PipelineDraft} (hd : d.tasks = []) :
    (each (BookSection.apply limits) ((p.tasks.map Task.sheet ++ p.longKnowledge.map knowledgeSheet).map Sheet.toSection)
      (p.restoreHead d)).Yields (p.restore d) := by
  rw [List.map_append, List.map_map, List.map_map]
  refine yields_each_append (each_tasks h.tasks (fun t ht c hc => ((hlegible.tasks t ht).commands c hc).spelled) ?_
    hclosed.dependencies_found hclosed.used_free)
    (each_knowledgeSheets fun content hc => not_blank_of_mem_longKnowledge h hc)
  rw [restoreHead_tasks, hd]
  exact hclosed.tasks_distinct

/-- What comes of a written pipeline: it is read, and it is accepted if all parameters with examples are mentioned in
its head or its tasks. -/
theorem assemble_toBook (h : p.Made) (hlegible : p.Legible) (hclosed : p.Closed limits) :
    ∃ book, Book.read p.toBook = .ok book ∧
      ((book.assemble limits).refusal = none → ∀ x ∈ p.samples, x.1 ∈ (p.restore (.ofBook book)).names) ∧
      ((∀ x ∈ p.samples, x.1 ∈ (p.restore (.ofBook book)).names) →
        (book.assemble limits).Yields (p.restoreAll (.ofBook book))) := by
  obtain ⟨description, hread⟩ := (h.volume_sound hlegible).read
  rw [← toBook_eq] at hread
  refine ⟨_, hread, ?_⟩
  let source : Source := ⟨PipelineDraft.bookSourceType, none, p.toBook⟩
  let d : PipelineDraft := { title := p.title, description, sources := [source] }
  have hhead := applyHead_cover h hlegible hclosed p.title description [source]
  have hsections := each_sections h hlegible hclosed (d := d) rfl
  have hvalid : ∀ x ∈ p.samples, Name.Valid x.1 := fun x hx => (hlegible.samples x hx).1
  have hvalue : ∀ x ∈ p.samples, (Text.trim x.2.toList).isEmpty = false := fun x hx => not_blank_of_mem_samples h hx
  have hnodup := nodup_names_restore hclosed.parameters_distinct d
  have hsheets : p.volume.sheets.map Sheet.toSection =
      (p.tasks.map Task.sheet ++ p.longKnowledge.map knowledgeSheet).map Sheet.toSection ++
        p.samples.map fun x => (sampleSheet x.1 x.2).toSection := by
    rw [volume, sheets, List.map_append, List.map_map]
    rfl
  constructor
  · intro hok
    obtain ⟨-, hrun⟩ := (andThen_accepted _ _).mp hok
    have hrun' : (each (BookSection.apply limits) (p.volume.sheets.map Sheet.toSection) (p.restoreHead d)).refusal =
        none := by
      rw [← hhead.2]
      exact hrun
    rw [hsheets] at hrun'
    exact mem_names_of_each_sampleSheets hvalid hvalue hnodup (each_append_accepted hsections hrun')
  · intro hmem
    refine hhead.andThen ?_
    change (each (BookSection.apply limits) (p.volume.sheets.map Sheet.toSection) (p.restoreHead d)).Yields _
    rw [hsheets]
    exact yields_each_append hsections (each_sampleSheets hvalid hvalue hnodup hmem)

/-- A pipeline that becomes a chatbot when it is compiled again: it has personas and nothing else, and its interface
is the one that is not written. -/
def TurnsChatbot (p : Pipeline) : Prop :=
  p.formfactorName = Formfactor.generic.name ∧ p.tasks = [] ∧ p.parameters = [] ∧ p.personas ≠ []

instance (p : Pipeline) : Decidable p.TurnsChatbot := by
  unfold TurnsChatbot
  infer_instance

theorem finish_graph (d : PipelineDraft) :
    (d.finish {}).tasks = d.resolveRoles.build.applyAbstractions.tasks ∧
      (d.finish {}).parameters = d.resolveRoles.build.applyAbstractions.parameters :=
  ⟨rfl, rfl⟩

section Rebuilt

variable {d : PipelineDraft}

theorem rebuilt_graph (hd : d.tasks = []) :
    (p.restoreAll d).resolveRoles.build.tasks = p.tasks ∧
      (p.restoreAll d).resolveRoles.build.formfactor = p.formfactor.filter (· ≠ Formfactor.generic.name) := by
  have hframe := foldl_addExample_frame p.samples (p.restore d)
  constructor
  · change (p.restoreAll d).tasks = _
    rw [restoreAll, hframe.1, tasks_restore, hd, List.nil_append]
  · change (p.restoreAll d).formfactor = _
    rw [restoreAll, hframe.2.1, formfactor_restore]

theorem applyAbstractions_rebuilt (h : p.Made) (hd : d.tasks = []) (hpersonas : d.personas = [])
    (hempty : (p.restoreAll d).resolveRoles.build.parameters = [] → p.parameters = []) (hnot : ¬ p.TurnsChatbot) :
    (p.restoreAll d).resolveRoles.build.applyAbstractions = (p.restoreAll d).resolveRoles.build.inferFormfactor := by
  obtain ⟨htasks, hformfactor⟩ := rebuilt_graph (p := p) hd
  obtain ⟨hitasks, hiparameters, hipersonas⟩ := (p.restoreAll d).resolveRoles.build.inferFormfactor_frame
  apply scaffoldChatbot_of_not_bare
  intro hne
  rw [← Bool.not_eq_true, isBare_iff, hiparameters, hitasks, htasks]
  rintro ⟨hchatbot, hparameters, hnone⟩
  have hp : p.personas ≠ [] := by
    intro hnil
    rw [hipersonas] at hne
    exact hne ((personas_restoreAll_eq hnil hnone d).trans hpersonas)
  have hname : p.formfactorName ≠ Formfactor.generic.name :=
    fun hname => hnot ⟨hname, hnone, hempty hparameters, hp⟩
  cases hf : p.formfactor with
  | none => exact hname (by rw [formfactorName, hf]; rfl)
  | some f =>
      have hgeneric : f ≠ Formfactor.generic.name := by simpa [formfactorName, hf] using hname
      have hsame : (p.restoreAll d).resolveRoles.build.formfactor = some f := by
        rw [hformfactor, hf]
        simp [Option.filter, hgeneric]
      rw [formfactor_inferFormfactor hsame] at hchatbot
      exact h.bare hnone (hempty hparameters) hp (hf.trans (congrArg some (hchatbot f hsame)))

theorem scaffold_of_turnsChatbot (hd : d.tasks = [])
    (hparameters : (p.restoreAll d).resolveRoles.build.parameters = []) (h : p.TurnsChatbot) :
    (p.restoreAll d).resolveRoles.build.applyAbstractions.tasks ≠ [] := by
  obtain ⟨htasks, hformfactor⟩ := rebuilt_graph (p := p) hd
  obtain ⟨hitasks, hiparameters, hipersonas⟩ := (p.restoreAll d).resolveRoles.build.inferFormfactor_frame
  obtain ⟨hname, hnone, -, hp⟩ := h
  have hunset : (p.restoreAll d).resolveRoles.build.formfactor = none := by
    rw [hformfactor]
    cases hf : p.formfactor with
    | none => rfl
    | some f =>
        have hgeneric : f = Formfactor.generic.name := by simpa [formfactorName, hf] using hname
        simp [Option.filter, hgeneric]
  apply scaffoldChatbot_tasks_ne_nil
  · rw [hipersonas]
    exact personas_restoreAll_ne_nil hp d
  · rw [isBare_iff, hiparameters, hitasks, htasks, formfactor_inferFormfactor_eq_none hparameters hunset]
    exact ⟨by simp, hparameters, hnone⟩

/-- All that a written pipeline mentions is rebuilt, and nothing is added, unless it becomes a chatbot. -/
theorem finish_restoreAll_iff (h : p.Made) (hclosed : p.Closed limits) (hd : d.tasks = []) (hpersonas : d.personas = []) :
    (((p.restoreAll d).finish {}).tasks = p.tasks ∧ ((p.restoreAll d).finish {}).parameters.Perm p.parameters) ↔
      (∀ q ∈ p.parameters, p.Mentions q) ∧ ¬ p.TurnsChatbot := by
  obtain ⟨htasks, -⟩ := rebuilt_graph (p := p) hd
  obtain ⟨hitasks, hiparameters, -⟩ := (p.restoreAll d).resolveRoles.build.inferFormfactor_frame
  rw [(finish_graph (p.restoreAll d)).1, (finish_graph (p.restoreAll d)).2]
  constructor
  · rintro ⟨hsame, hperm⟩
    have hparameters : (p.restoreAll d).resolveRoles.build.applyAbstractions.parameters =
        (p.restoreAll d).resolveRoles.build.parameters := by
      rcases scaffoldChatbot_cases (p.restoreAll d).resolveRoles.build.inferFormfactor with
        hcase | ⟨persona, -, hnone, hscaffold, -⟩
      · rw [applyAbstractions, hcase, hiparameters]
      · rw [hitasks, htasks] at hnone
        rw [applyAbstractions, hscaffold, hnone] at hsame
        cases hsame
    rw [hparameters] at hperm
    constructor
    · intro q hq
      exact ((mem_parameters_build hclosed h.roles d).mp (hperm.mem_iff.mpr hq)).2
    · intro hturns
      have hnil : (p.restoreAll d).resolveRoles.build.parameters = [] := by
        rw [hturns.2.2.1] at hperm
        exact hperm.eq_nil
      exact scaffold_of_turnsChatbot hd hnil hturns (hsame.trans hturns.2.1)
  · rintro ⟨hall, hnot⟩
    have hperm := perm_parameters_build hclosed h.roles d hall
    have hempty : (p.restoreAll d).resolveRoles.build.parameters = [] → p.parameters = [] := by
      intro hnil
      rw [hnil] at hperm
      exact hperm.symm.eq_nil
    rw [applyAbstractions_rebuilt h hd hpersonas hempty hnot, hitasks, hiparameters]
    exact ⟨htasks, hperm⟩

end Rebuilt

theorem Made.toBook_iff (h : p.Made) (hlegible : p.Legible) (hclosed : p.Closed (Options.limits {}))
    (hvalid : p.validate = .ok ()) :
    (∃ q, (compile {} p.toBook).result = .ok q ∧ q.tasks = p.tasks ∧ q.parameters.Perm p.parameters) ↔
      (∀ q ∈ p.parameters, p.Mentions q) ∧ ¬ p.TurnsChatbot := by
  obtain ⟨book, hread, haccepted, hyields⟩ := assemble_toBook h hlegible hclosed
  constructor
  · rintro ⟨q, hq, htasks, hperm⟩
    obtain ⟨book', hread', hok, rfl, -⟩ := compile_ok hq
    cases hread.symm.trans hread'
    have hdraft := (hyields (haccepted hok)).2
    rw [hdraft] at htasks hperm
    exact (finish_restoreAll_iff h hclosed rfl rfl).mp ⟨htasks, hperm⟩
  · rintro hiff
    obtain ⟨htasks, hperm⟩ := (finish_restoreAll_iff (d := .ofBook book) h hclosed rfl rfl).mpr hiff
    have hmem : ∀ x ∈ p.samples, x.1 ∈ (p.restore (.ofBook book)).names := by
      intro x hx
      obtain ⟨q, hq, hx⟩ := List.mem_flatMap.mp hx
      obtain ⟨value, -, rfl⟩ := List.mem_map.mp hx
      exact (mem_names_restore hclosed _ hq).mpr (hiff.1 q hq)
    obtain ⟨hok, hdraft⟩ := hyields hmem
    rw [← hdraft] at htasks hperm
    exact ⟨_, compile_of_accepted hread hok (validate_perm (List.Perm.of_eq htasks) hperm hvalid), htasks, hperm⟩

end Pipeline

/-- A pipeline that a book compiles to is restored, up to the order of its parameters, from the book that it is written
as if it is legible, except that a parameter is lost that this book does not mention and bare personas become a
chatbot. -/
theorem compile_toBook_iff (source : String) (p : Pipeline) (h : (compile {} source).result = .ok p) (hlegible : p.Legible) :
    (∃ q, (compile {} p.toBook).result = .ok q ∧ q.tasks = p.tasks ∧ q.parameters.Perm p.parameters) ↔
      (∀ q ∈ p.parameters, p.Mentions q) ∧ ¬ p.TurnsChatbot := by
  obtain ⟨book, hread, hok, rfl, hvalid⟩ := compile_ok h
  have hmade := (Book.assemble_made hread hok).finish (Book.assemble_closed hok).names_nodup {} rfl
  have hclosed := (Book.assemble_closed hok).finish {}
  exact hmade.toBook_iff hlegible hclosed (hvalid rfl)

def noteBook : String := "# T\n- INPUT PARAMETER \x7ba\x7d note\n## A\n\x7ba\x7d\n-> \x7bb\x7d"

def noteTask : Task where
  name := "a"
  title := "A"
  type := .prompt
  content := "\x7ba\x7d"
  result := some "b"
  dependencies := ["a"]

def notePipeline : Pipeline where
  title := "T"
  formfactor := some "GENERIC"
  parameters := [⟨"a", some "note", .input, []⟩, ⟨"b", none, .output, []⟩]
  tasks := [noteTask]
  sources := [{ type := "BOOK", content := noteBook }]

theorem notePipeline_legible : notePipeline.Legible := by
  have hhead : notePipeline.headCommands = [.parameter ⟨"a", some "note", true, false⟩, .parameter ⟨"b", none, false, true⟩] := by
    decide
  have hcommand {c : Command} (hs : c.Spelled) (hfits : c.FitsLine) (hstill : Still (openingLine c.write).toList)
      (hplain : (c.write.toList.splitOn '\n').tail = []) : c.Legible := ⟨hs, hfits, hstill, by simp [hplain]⟩
  refine ⟨by decide, by simp [notePipeline], ?_, ?_, by simp [notePipeline, Pipeline.longKnowledge], by decide⟩
  · rw [hhead, List.forall_mem_cons, List.forall_mem_singleton]
    exact ⟨hcommand (by decide : Name.isSpelled "a".toList = true) (by decide : Name.Valid "a") (by decide +kernel)
      (by decide +kernel), hcommand (by decide : Name.isSpelled "b".toList = true) (by decide : Name.Valid "b")
      (by decide +kernel) (by decide +kernel)⟩
  · rw [notePipeline, List.forall_mem_singleton]
    have htask : noteTask.commands = [.sectionType .prompt] := by decide
    refine ⟨by decide, by simp [noteTask], by decide, ?_⟩
    rw [htask, List.forall_mem_singleton]
    exact hcommand trivial trivial (by decide +kernel) (by decide +kernel)

theorem compile_toBook_iff_noteBook : ∃ q, (compile {} notePipeline.toBook).result = .ok q ∧
    q.tasks = notePipeline.tasks ∧ q.parameters.Perm notePipeline.parameters := by
  have hcompile : (compile {} noteBook).result.toOption = some notePipeline := by decide +kernel
  have hmentions : (∀ q ∈ notePipeline.parameters, notePipeline.Mentions q) ∧ ¬ notePipeline.TurnsChatbot := by decide
  exact (compile_toBook_iff noteBook notePipeline (eq_ok_of_toOption hcompile) notePipeline_legible).mpr hmentions

def unusedBook : String := "# T\n- INPUT PARAM \x7ba\x7d\n- OUTPUT PARAM \x7bb\x7d\n- PARAM \x7bc\x7d"

theorem unusedBook_not_restored : ∃ p q, (compile {} unusedBook).result = .ok p ∧ (compile {} p.toBook).result = .ok q ∧
    ¬ q.parameters.Perm p.parameters := by
  have hlost : ((compile {} unusedBook).result.toOption.bind fun p => (compile {} p.toBook).result.toOption.map fun q =>
      decide (q.parameters.length < p.parameters.length)) = some true := by decide +kernel
  obtain ⟨p, hp, h⟩ := Option.bind_eq_some_iff.mp hlost
  obtain ⟨q, hq, hlength⟩ := Option.map_eq_some_iff.mp h
  refine ⟨p, q, eq_ok_of_toOption hp, eq_ok_of_toOption hq, fun hperm => ?_⟩
  have hlt := of_decide_eq_true hlength
  rw [hperm.length_eq] at hlt
  exact Nat.lt_irrefl _ hlt

end BookCompiler
