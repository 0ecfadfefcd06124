import BookCompiler.Proofs.Command.Growth
import BookCompiler.Proofs.Compile.Finish
import BookCompiler.Proofs.Compile.Parts

namespace BookCompiler

open Attempt

theorem ParameterDraft.examples_merge (p : ParameterDraft) {q : ParameterDraft} (hq : q.examples = []) :
    (p.merge q).draft.examples = p.examples := by
  rw [merge]
  split
  · rfl
  · split
    · rfl
    · rw [hq]
      exact List.append_nil _

namespace PipelineDraft

variable {d e : PipelineDraft}

def examplesOf (d : PipelineDraft) (name : String) : List String := (Slots.known d.parameter? name).examples

theorem examplesOf_congr (h : e.parameters = d.parameters) (name : String) : e.examplesOf name = d.examplesOf name := by
  simp only [examplesOf, Slots.known, parameter?, h]

theorem examplesOf_update {p : ParameterDraft} (h : e.parameter? = Function.update d.parameter? p.name (some p))
    (name : String) : e.examplesOf name = if name = p.name then p.examples else d.examplesOf name := by
  rw [examplesOf, h]
  split
  · rename_i hname
    rw [hname, Slots.known_update_self]
  · rename_i hname
    rw [Slots.known_update_of_ne _ hname]
    rfl

theorem examplesOf_setParameter {p q : ParameterDraft} {name : String} (hp : d.parameter? name = some p)
    (hq : q.name = p.name) (other : String) :
    (d.setParameter q).examplesOf other = if other = name then q.examples else d.examplesOf other := by
  obtain ⟨hmem, rfl⟩ := parameter?_eq_some hp
  rw [← hq]
  exact examplesOf_update (parameter?_setParameter (hq ▸ List.mem_map_of_mem hmem)) other

theorem examplesOf_eq {p : ParameterDraft} {name : String} (h : d.parameter? name = some p) :
    d.examplesOf name = p.examples := by
  rw [examplesOf, Slots.known, h]
  rfl

theorem examplesOf_of_undeclared {name : String} (h : d.parameter? name = none) : d.examplesOf name = [] := by
  rw [examplesOf, Slots.known, h]
  rfl

theorem examplesOf_defineParameter (d : PipelineDraft) {q : ParameterDraft} (hq : q.examples = []) (name : String) :
    (d.defineParameter q).draft.examplesOf name = d.examplesOf name := by
  rw [defineParameter]
  split
  · rfl
  · cases hfind : d.parameter? q.name with
    | none =>
        refine (examplesOf_update (parameter?_append hfind) name).trans ?_
        split
        · rename_i hname
          rw [hq, hname, examplesOf_of_undeclared hfind]
        · rfl
    | some p =>
        refine (examplesOf_setParameter hfind (p.merge_name q) name).trans ?_
        split
        · rename_i hname
          rw [ParameterDraft.examples_merge p hq, hname, examplesOf_eq hfind]
        · rfl

theorem mem_addKnowledge (d : PipelineDraft) (content : String) :
    content ∈ (d.addKnowledge content).knowledgeSources.map KnowledgeSource.content := by
  rw [addKnowledge]
  split
  · rename_i hknown
    obtain ⟨k, hk, hcontent⟩ := List.any_eq_true.mp hknown
    exact List.mem_map.mpr ⟨k, hk, by simpa using hcontent⟩
  · exact List.mem_map.mpr ⟨.ofText content, List.mem_append_right _ (List.mem_singleton.mpr rfl), rfl⟩

end PipelineDraft

theorem Command.examples_of_declared? {c : Command} {q : ParameterDraft} (h : c.declared? = some q) : q.examples = [] := by
  cases c with
  | parameter x =>
      obtain ⟨role, -, rfl⟩ := Option.map_eq_some_iff.mp h
      rfl
  | _ => cases h

theorem GraphStep.examplesOf {c : Command} {d e : PipelineDraft} (h : GraphStep c d e) (hc : c ≠ .sectionType .sample)
    (name : String) : e.examplesOf name = d.examplesOf name := by
  cases h with
  | frame e hparameters htasks => exact PipelineDraft.examplesOf_congr hparameters name
  | declare q hq => exact d.examplesOf_defineParameter (c.examples_of_declared? hq) name
  | sample p name value hp hsample => exact absurd hsample hc

theorem Command.examplesOf_applyToHead (c : Command) (d : PipelineDraft) (name : String) :
    (c.applyToHead d).draft.examplesOf name = d.examplesOf name := by
  by_cases hc : c = .sectionType .sample
  · rw [hc]
    rfl
  · exact (c.applyToHead_step d).examplesOf hc name

def TaskDraft.samplesOf (t : TaskDraft) (name : String) : List String :=
  if t.sectionType = some .sample ∧ t.result = some name then [t.content] else []

theorem TaskDraft.samplesOf_of_ne {t : TaskDraft} (h : t.sectionType ≠ some .sample) (name : String) :
    t.samplesOf name = [] :=
  if_neg fun hsample => h hsample.1

namespace Workpiece

/-- What the type of a section has done to the pipeline, beginning with a draft of it. -/
structure Serves (d : PipelineDraft) (w : Workpiece) : Prop where
  examples : ∀ name, w.pipeline.examplesOf name = d.examplesOf name ++ w.task.samplesOf name
  sample : w.task.sectionType = some .sample → ∃ name ∈ w.pipeline.names, w.task.result = some name
  knowledge : w.task.sectionType = some .knowledge →
    w.task.content ∈ w.pipeline.knowledgeSources.map KnowledgeSource.content

variable {d : PipelineDraft} {w v : Workpiece}

theorem serves_of_untyped (htype : w.task.sectionType = none)
    (hexamples : ∀ name, w.pipeline.examplesOf name = d.examplesOf name) : w.Serves d := by
  constructor
  · intro name
    rw [hexamples, TaskDraft.samplesOf_of_ne (by simp [htype]), List.append_nil]
  · rw [htype]
    exact fun h => by cases h
  · rw [htype]
    exact fun h => by cases h

theorem Enacts.serves {type : SectionType} {a : Attempt ApplyError Workpiece} (h : w.Enacts type a)
    (htype : w.task.sectionType = some type) (hok : a.refusal = none) : a.draft.Serves w.pipeline := by
  have hsame (hsample : type ≠ .sample) (name : String) :
      a.draft.pipeline.examplesOf name = w.pipeline.examplesOf name ++ a.draft.task.samplesOf name := by
    have hnone : w.task.sectionType ≠ some .sample := by rwa [htype, ne_eq, Option.some.injEq]
    rw [h.step.examplesOf fun hc => hsample (Command.sectionType.inj hc), h.task,
      TaskDraft.samplesOf_of_ne hnone, List.append_nil]
  cases h with
  | refuse => cases hok
  | take _ _ hsample hknowledge _ _ =>
      refine ⟨hsame hsample, fun h => ?_, fun h => ?_⟩
      · exact absurd (Option.some.inj (htype.symm.trans h)) hsample
      · exact absurd (Option.some.inj (htype.symm.trans h)) hknowledge
  | sample target p _ hresult hp =>
      refine ⟨fun name => ?_, fun _ => ⟨target, ?_, hresult⟩, fun h => by cases htype.symm.trans h⟩
      · have hset := PipelineDraft.examplesOf_setParameter hp
          (q := { p with examples := p.examples ++ [w.task.content] }) rfl name
        rw [done, withPipeline, hset, TaskDraft.samplesOf, htype, hresult]
        by_cases hname : name = target
        · rw [if_pos hname, if_pos ⟨rfl, by rw [hname]⟩, hname, PipelineDraft.examplesOf_eq hp]
        · rw [if_neg hname, if_neg fun h => hname (Option.some.inj h.2).symm, List.append_nil]
      · rw [done, withPipeline, PipelineDraft.names_setParameter]
        obtain ⟨hmem, rfl⟩ := PipelineDraft.parameter?_eq_some hp
        exact List.mem_map_of_mem hmem
  | knowledge =>
      refine ⟨hsame (by decide), fun h => ?_, fun _ => w.pipeline.mem_addKnowledge w.task.content⟩
      cases htype.symm.trans h

theorem Serves.of_grows (h : w.Serves d) (hgrows : w.Grows v) (htype : v.task.sectionType = w.task.sectionType)
    (hexamples : ∀ name, v.pipeline.examplesOf name = w.pipeline.examplesOf name) : v.Serves d := by
  constructor
  · intro name
    rw [hexamples, h.examples, TaskDraft.samplesOf, TaskDraft.samplesOf, htype, hgrows.task.result, hgrows.task.content]
  · rw [htype, hgrows.task.result]
    intro hsample
    obtain ⟨name, hmem, hresult⟩ := h.sample hsample
    exact ⟨name, hgrows.pipeline.names.subset hmem, hresult⟩
  · rw [htype, hgrows.task.content]
    exact fun hknowledge => (hgrows.pipeline.knowledgeSources.map _).subset (h.knowledge hknowledge)

theorem Serves.applyToTask (h : w.Serves d) {c : Command} (hc : (c.applyToTask w).accepted? = some v) : v.Serves d := by
  obtain ⟨hok, rfl⟩ := accepted?_eq_some.mp hc
  cases htype : c.sectionType? with
  | none =>
      have hplain : c ≠ .sectionType .sample := by
        rintro rfl
        cases htype
      exact h.of_grows (c.applyToTask_grows w) (Command.sectionType_of_plain htype w)
        ((c.applyToTask_step w).examplesOf hplain)
  | some type =>
      cases c with
      | sectionType type' =>
          cases htype
          simp only [Command.applyToTask, setType] at hok ⊢
          split at hok
          · cases hok
          · rename_i hnone
            have hserves := (enacts (w.withTask { w.task with sectionType := some type }) type).serves rfl hok
            refine { hserves with examples := fun name => (hserves.examples name).trans ?_ }
            have hbefore : w.pipeline.examplesOf name = d.examplesOf name := by
              rw [h.examples, TaskDraft.samplesOf_of_ne (by simp [hnone]), List.append_nil]
            rw [withTask, hbefore]
      | _ => cases htype

theorem run_accepted {cs : List Command} (h : w.Serves d) (hrun : w.run cs = some v) :
    v.task.sectionType.toList = w.task.sectionType.toList ++ cs.filterMap Command.sectionType? ∧ w.Grows v ∧ v.Serves d := by
  induction cs generalizing w with
  | nil =>
      cases hrun
      exact ⟨(List.append_nil _).symm, .refl _, h⟩
  | cons c cs ih =>
      obtain ⟨u, hu, hrest⟩ := Option.bind_eq_some_iff.mp (List.foldlM_cons.symm.trans hrun)
      have hgrows := c.applyToTask_grows w
      rw [(accepted?_eq_some.mp hu).2] at hgrows
      obtain ⟨htypes, hlater, hserves⟩ := ih (h.applyToTask hu) hrest
      refine ⟨?_, hgrows.trans hlater, hserves⟩
      rw [htypes, Command.sectionType_applyToTask hu, List.append_assoc]
      cases hc : c.sectionType? with
      | none => rw [List.filterMap_cons_none hc, Option.toList_none, List.nil_append]
      | some type => rw [List.filterMap_cons_some hc, Option.toList_some, List.singleton_append]

end Workpiece

namespace BookSection

def types (s : BookSection) : List SectionType :=
  s.commandLines.filterMap fun line => (Registry.builtIn.read .task line).toOption.bind Command.sectionType?

/-- The type of a section: the one that it is given, or that of a prompt if there is none. -/
def type? (s : BookSection) : Option SectionType :=
  match s.types with
  | [] => some .prompt
  | [type] => some type
  | _ => none

def resultName? (s : BookSection) : Option String := s.result.bind fun raw => (Name.readReference raw).toOption

def isTask (s : BookSection) : Bool := (s.type?.bind SectionType.taskType).isSome

def exemplifies (s : BookSection) (name : String) : Bool := s.type? = some .sample ∧ s.resultName? = some name

/-- The task that a section becomes has all that the section says. -/
structure Becomes (s : BookSection) (t : Task) : Prop where
  type : s.type?.bind SectionType.taskType = some t.type
  name : t.name = s.name
  title : t.title = s.title
  description : t.description = s.description
  content : t.content = s.content
  result : t.result = s.resultName?
  marked : t.result.isSome = s.result.isSome

/-- The commands of a section are applied to such a draft, and leave it such a draft. -/
structure Drafts (s : BookSection) (t : TaskDraft) : Prop where
  name : t.name = s.name
  title : t.title = s.title
  description : t.description = s.description
  content : t.content = s.content
  result : t.result = s.resultName?
  marked : t.result.isSome = s.result.isSome

variable {s : BookSection} {limits : Script.Limits}

theorem openDraft_drafts {t : TaskDraft} (h : s.openDraft = .ok t) : t.sectionType = none ∧ s.Drafts t := by
  rw [openDraft] at h
  split at h
  · rename_i hresult
    cases h
    exact ⟨rfl, rfl, rfl, rfl, rfl, by rw [resultName?, hresult]; rfl, by rw [hresult]; rfl⟩
  · rename_i raw hresult
    split at h
    · cases h
    · rename_i name hname
      cases h
      exact ⟨rfl, rfl, rfl, rfl, rfl, by rw [resultName?, hresult, Option.bind_some, hname]; rfl, by rw [hresult]; rfl⟩

theorem Drafts.of_grows {t u : TaskDraft} (h : s.Drafts t) (hgrows : t.Grows u) : s.Drafts u :=
  ⟨hgrows.name.trans h.name, hgrows.title.trans h.title, hgrows.description.trans h.description,
    hgrows.content.trans h.content, hgrows.result.trans h.result, by rw [hgrows.result, h.marked]⟩

theorem types_eq {ws : List WrittenCommand} (h : (readCommands .task s.commandLines).1 = .ok ws) :
    s.types = (ws.map WrittenCommand.command).filterMap Command.sectionType? := by
  obtain ⟨hlines, hread⟩ := readCommands_ok_iff.mp h
  rw [types, ← hlines, List.filterMap_map, List.filterMap_map]
  refine List.filterMap_congr fun c hc => ?_
  simp [hread c hc, Except.toOption]

theorem filterMap_commands? {cs : List Command} (h : s.commands? = some cs) :
    cs.filterMap Command.sectionType? = if s.types = [] then [.prompt] else s.types := by
  obtain ⟨ws, hread, rfl⟩ := commands?_eq_some h
  have hkind (c : Command) : c.kind = .sectionType ↔ c.sectionType?.isSome = true := by
    cases c <;> simp [Command.kind, Command.sectionType?]
  rw [types_eq hread, withSectionType]
  split
  · rename_i hany
    rw [if_neg]
    obtain ⟨c, hc, htyped⟩ := List.any_eq_true.mp hany
    rw [decide_eq_true_eq, hkind] at htyped
    obtain ⟨type, htype⟩ := Option.isSome_iff_exists.mp htyped
    exact List.ne_nil_of_mem (List.mem_filterMap.mpr ⟨c.command, List.mem_map_of_mem hc, htype⟩)
  · rename_i hnone
    have huntyped : (ws.map WrittenCommand.command).filterMap Command.sectionType? = [] := by
      refine List.filterMap_eq_nil_iff.mpr fun c hc => ?_
      obtain ⟨w, hw, rfl⟩ := List.mem_map.mp hc
      rw [← Option.not_isSome_iff_eq_none, ← hkind]
      exact fun htyped => hnone (List.any_eq_true.mpr ⟨w, hw, by simpa using htyped⟩)
    rw [List.map_cons, if_pos huntyped]
    exact congrArg (SectionType.prompt :: ·) huntyped

theorem type?_of_commands {cs : List Command} {type : Option SectionType} (hcs : s.commands? = some cs)
    (h : type.toList = cs.filterMap Command.sectionType?) : s.types.length ≤ 1 ∧ type = s.type? := by
  rw [filterMap_commands? hcs] at h
  cases type with
  | none =>
      split at h
      · cases h
      · rename_i hne
        exact absurd h.symm hne
  | some type =>
      split at h
      · rename_i hnil
        cases h
        exact ⟨by simp [hnil], by rw [type?, hnil]⟩
      · exact ⟨by simp [← h], by rw [type?, ← h]; rfl⟩

theorem apply_drafts {d e : PipelineDraft} (h : (s.apply limits d).accepted? = some e) :
    s.types.length ≤ 1 ∧ ∃ w : Workpiece, w.task.sectionType = s.type? ∧ s.Drafts w.task ∧ d.Grows w.pipeline ∧
      w.Serves d ∧ (s.addTask limits w).accepted? = some e := by
  rw [accepted?_apply] at h
  obtain ⟨task, htask, h⟩ := Option.bind_eq_some_iff.mp h
  obtain ⟨cs, hcs, h⟩ := Option.bind_eq_some_iff.mp h
  obtain ⟨w, hrun, hadd⟩ := Option.bind_eq_some_iff.mp h
  obtain ⟨huntyped, hdrafts⟩ := openDraft_drafts (eq_ok_of_toOption htask)
  obtain ⟨htypes, hgrows, hserves⟩ :=
    Workpiece.run_accepted (Workpiece.serves_of_untyped (d := d) huntyped fun _ => rfl) hrun
  rw [huntyped, Option.toList_none, List.nil_append] at htypes
  obtain ⟨hlength, htype⟩ := type?_of_commands hcs htypes
  exact ⟨hlength, w, htype, hdrafts.of_grows hgrows.task, hgrows.pipeline, hserves, hadd⟩

theorem Drafts.becomes {t : TaskDraft} {u v : Task} {state : String} {d : PipelineDraft} (h : s.Drafts t)
    (htype : t.sectionType = s.type?) (hbuild : t.build = some u) (hfinish : s.finishTask limits state d u = .ok v) :
    s.Becomes v := by
  obtain ⟨type, htask, rfl⟩ := TaskDraft.build_eq_some hbuild
  obtain ⟨-, settled, hsettled, -, hv⟩ := finishTask_ok hfinish
  obtain ⟨language, rfl⟩ := settleLanguage_ok hsettled
  rw [hv]
  exact ⟨htype ▸ htask, h.name, h.title, h.description, h.content, h.result, h.marked⟩

theorem addTask_grown {w : Workpiece} {e : PipelineDraft} (h : (s.addTask limits w).accepted? = some e) :
    (∀ name, e.examplesOf name = w.pipeline.examplesOf name) ∧ w.pipeline.names <+: e.names ∧
      w.pipeline.knowledgeSources <+: e.knowledgeSources ∧
      (w.task.build = none ∧ e.tasks = w.pipeline.tasks ∨
        ∃ t u, w.task.build = some t ∧ s.finishTask limits w.task.snapshot w.pipeline t = .ok u ∧
          e.tasks = w.pipeline.tasks ++ [u]) := by
  obtain ⟨hok, rfl⟩ := accepted?_eq_some.mp h
  obtain ⟨hbuild, hdraft⟩ | ⟨t, u, hbuild, hu, a, ha, hrun, hdraft⟩ := addTask_accepted hok
  · rw [hdraft]
    exact ⟨fun _ => rfl, List.prefix_rfl, List.prefix_rfl, Or.inl ⟨hbuild, rfl⟩⟩
  · have hkept : w.pipeline.Grows a.draft ∧ ∀ name, a.draft.examplesOf name = w.pipeline.examplesOf name := by
      rw [← ha] at hrun ⊢
      refine each_keeps (I := fun d => w.pipeline.Grows d ∧ ∀ name, d.examplesOf name = w.pipeline.examplesOf name)
        (fun name _ d hd _ => ?_) ⟨.refl _, fun _ => rfl⟩ hrun
      rw [declareUsed_draft]
      exact ⟨hd.1.trans (d.defineParameter_grows { name }),
        fun other => (d.examplesOf_defineParameter rfl other).trans (hd.2 other)⟩
    rw [hdraft]
    exact ⟨hkept.2, hkept.1.names, hkept.1.knowledgeSources,
      Or.inr ⟨t, u, hbuild, hu, congrArg (· ++ [u]) hkept.1.tasks⟩⟩

end BookSection

namespace PipelineDraft

/-- The place in a draft of each of the sections that were added to it. -/
structure Covers (d : PipelineDraft) (ss : List BookSection) : Prop where
  types : ∀ s ∈ ss, s.types.length ≤ 1
  tasks : List.Forall₂ BookSection.Becomes (ss.filter BookSection.isTask) d.tasks
  examples : ∀ name, d.examplesOf name = (ss.filter (·.exemplifies name)).map BookSection.content
  samples : ∀ s ∈ ss, s.type? = some .sample → ∃ name ∈ d.names, s.resultName? = some name
  knowledge : ∀ s ∈ ss, s.type? = some .knowledge → s.content ∈ d.knowledgeSources.map KnowledgeSource.content

namespace Covers

variable {d e : PipelineDraft} {ss : List BookSection} {s : BookSection} {limits : Script.Limits}

theorem apply (h : d.Covers ss) (hs : (s.apply limits d).accepted? = some e) : e.Covers (ss ++ [s]) := by
  obtain ⟨htypes, w, htype, hdrafts, hgrows, hserves, hadd⟩ := BookSection.apply_drafts hs
  obtain ⟨hexamples, hnames, hknowledge, htasks⟩ := BookSection.addTask_grown hadd
  constructor
  · exact List.forall_mem_append.mpr ⟨h.types, List.forall_mem_singleton.mpr htypes⟩
  · have hisTask : s.isTask = w.task.build.isSome := by rw [TaskDraft.isSome_build, htype, BookSection.isTask]
    rw [List.filter_append, List.filter_singleton, hisTask]
    rcases htasks with ⟨hbuild, htasks⟩ | ⟨t, u, hbuild, hfinish, htasks⟩
    · rw [htasks, hgrows.tasks, hbuild]
      simpa using h.tasks
    · rw [htasks, hgrows.tasks, hbuild]
      exact List.rel_append h.tasks (.cons (hdrafts.becomes htype hbuild hfinish) .nil)
  · intro name
    rw [hexamples, hserves.examples, h.examples, List.filter_append, List.map_append, List.filter_singleton,
      TaskDraft.samplesOf, htype, hdrafts.result, hdrafts.content]
    by_cases hsample : s.type? = some .sample ∧ s.resultName? = some name
    · rw [if_pos hsample, BookSection.exemplifies, decide_eq_true hsample]
      rfl
    · rw [if_neg hsample, BookSection.exemplifies, decide_eq_false hsample]
      rfl
  · refine List.forall_mem_append.mpr ⟨fun t ht htsample => ?_, List.forall_mem_singleton.mpr fun hssample => ?_⟩
    · obtain ⟨name, hname, hresult⟩ := h.samples t ht htsample
      exact ⟨name, (hgrows.names.trans hnames).subset hname, hresult⟩
    · obtain ⟨name, hname, hresult⟩ := hserves.sample (htype.trans hssample)
      exact ⟨name, hnames.subset hname, hdrafts.result ▸ hresult⟩
  · refine List.forall_mem_append.mpr ⟨fun t ht htknowledge => ?_, List.forall_mem_singleton.mpr fun hsknowledge => ?_⟩
    · exact ((hgrows.knowledgeSources.trans hknowledge).map _).subset (h.knowledge t ht htknowledge)
    · rw [← hdrafts.content]
      exact (hknowledge.map _).subset (hserves.knowledge (htype.trans hsknowledge))

theorem each (h : d.Covers ss) {more : List BookSection}
    (hmore : (Attempt.each (BookSection.apply limits) more d).accepted? = some e) : e.Covers (ss ++ more) := by
  induction more generalizing d ss with
  | nil =>
      cases hmore
      rwa [List.append_nil]
  | cons s more ih =>
      rw [Attempt.each, accepted?_andThen] at hmore
      obtain ⟨next, hnext, hrest⟩ := Option.bind_eq_some_iff.mp hmore
      rw [List.append_cons]
      exact ih (h.apply hnext) hrest

theorem ofHead {book : Book}
    (h : ((PipelineDraft.ofBook book).applyHead book.head.commandLines).accepted? = some d) : d.Covers [] := by
  obtain ⟨hok, rfl⟩ := accepted?_eq_some.mp h
  have hhead := applyHead_keeps (I := fun d => d.tasks = [] ∧ ∀ name, d.examplesOf name = [])
    (fun _ _ c _ d hd _ => ⟨(c.applyToHead_step d).tasks_eq.trans hd.1,
      fun name => (c.examplesOf_applyToHead d name).trans (hd.2 name)⟩) ⟨rfl, fun _ => rfl⟩ hok
  refine ⟨by simp, ?_, hhead.2, by simp, by simp⟩
  rw [hhead.1]
  exact .nil

theorem ofBook {book : Book} (h : (book.assemble limits).accepted? = some d) : d.Covers book.sections := by
  rw [Book.assemble, accepted?_andThen] at h
  obtain ⟨head, hhead, hsections⟩ := Option.bind_eq_some_iff.mp h
  exact (ofHead hhead).each hsections

theorem finish_examples (h : d.Covers ss) (hnodup : d.names.Nodup) (options : Options) :
    ∀ q ∈ (d.finish options).parameters, q.examples = (ss.filter (·.exemplifies q.name)).map BookSection.content := by
  intro q hq
  rw [← h.examples]
  rcases d.finish_cases options with ⟨hparameters, -⟩ | ⟨-, hnone, -, persona, -, -, hparameters⟩
  · rw [hparameters] at hq
    obtain ⟨r, hr, rfl⟩ := (mem_parameters_resolveRoles hnodup).mp hq
    exact (examplesOf_eq ((parameter?_eq_some_iff hnodup r).mpr hr)).symm
  · rw [hparameters] at hq
    rw [examplesOf_of_undeclared (by rw [parameter?, hnone]; rfl)]
    revert q
    decide

end Covers

theorem names_finish {d : PipelineDraft} {name : String} (hname : name ∈ d.names) (options : Options) :
    (d.finish options).parameters.map Parameter.name = d.names := by
  rcases d.finish_cases options with ⟨hparameters, -⟩ | ⟨-, hnone, -⟩
  · rw [hparameters]
    exact d.names_resolveRoles
  · rw [names, hnone] at hname
    cases hname

end PipelineDraft

namespace Book

/-- Every section of a book has its place in the pipeline, and there is nothing else in these places. A section is a
task, an example of a parameter or a source of knowledge, and it is given one type at most. Only where there are no
tasks and no parameters a chatbot may stand in their stead. -/
theorem assemble_sections (options : Options) (book : Book) (d : PipelineDraft)
    (hd : (book.assemble options.limits).accepted? = some d) :
    (∀ s ∈ book.sections, s.types.length ≤ 1) ∧
      (List.Forall₂ BookSection.Becomes (book.sections.filter BookSection.isTask) (d.finish options).tasks ∨
        book.sections.filter BookSection.isTask = [] ∧ d.parameters = [] ∧ options.abstractions = true ∧
          ∃ persona ∈ d.personas.head?, (d.finish options).tasks = Chatbot.tasks persona.name) ∧
      (∀ q ∈ (d.finish options).parameters,
        q.examples = (book.sections.filter (·.exemplifies q.name)).map BookSection.content) ∧
      (∀ s ∈ book.sections, s.type? = some .sample →
        ∃! q, q ∈ (d.finish options).parameters ∧ s.resultName? = some q.name) ∧
      ∀ s ∈ book.sections, s.type? = some .knowledge →
        s.content ∈ (d.finish options).knowledgeSources.map KnowledgeSource.content := by
  have hcovers := PipelineDraft.Covers.ofBook hd
  have hnodup : d.names.Nodup := by
    obtain ⟨hok, rfl⟩ := accepted?_eq_some.mp hd
    exact (assemble_closed hok).names_nodup
  refine ⟨hcovers.types, ?_, hcovers.finish_examples hnodup options, fun s hs hsample => ?_, ?_⟩
  · rcases d.finish_cases options with ⟨-, htasks⟩ | ⟨hon, hparameters, hnone, persona, hpersona, htasks, -⟩
    · rw [htasks]
      exact Or.inl hcovers.tasks
    · have hfilter := hcovers.tasks
      rw [hnone, List.forall₂_nil_right_iff] at hfilter
      exact Or.inr ⟨hfilter, hparameters, hon, persona, hpersona, htasks⟩
  · obtain ⟨name, hname, hresult⟩ := hcovers.samples s hs hsample
    have hnames := PipelineDraft.names_finish hname options
    rw [← hnames] at hname hnodup
    obtain ⟨q, hq, rfl⟩ := List.mem_map.mp hname
    refine ⟨q, ⟨hq, hresult⟩, fun r hr => ?_⟩
    rw [hresult, Option.some.injEq] at hr
    exact List.inj_on_of_nodup_map hnodup hr.1 hq hr.2.symm
  · rw [(d.sameHead_finish options).knowledgeSources]
    exact hcovers.knowledge

def mint : BookSection where
  title := "Mint"
  name := "mint"
  description := none
  content := "mint"
  language := none
  result := some "a"
  commandLines := ["EXAMPLE"]

def brew : BookSection where
  title := "Brew"
  name := "brew"
  description := none
  content := "\x7ba\x7d"
  language := none
  result := some "b"
  commandLines := []

def tea : BookSection where
  title := "Tea"
  name := "tea"
  description := none
  content := "tea"
  language := none
  result := none
  commandLines := ["SECTION KNOWLEDGE"]

def herbal : Book where
  head := { title := "Herbal", description := none, commandLines := ["INPUT PARAM \x7ba\x7d"] }
  sections := [mint, brew, tea]
  source := ""

theorem assemble_sections_herbal : ∃ d, (herbal.assemble ({} : Options).limits).accepted? = some d ∧
    (∃ t, (d.finish {}).tasks = [t] ∧ brew.Becomes t) ∧
    (∃ q ∈ (d.finish {}).parameters, q.name = "a" ∧ q.examples = ["mint"]) ∧
    "tea" ∈ (d.finish {}).knowledgeSources.map KnowledgeSource.content := by
  obtain ⟨d, hd⟩ := Option.isSome_iff_exists.mp
    (by decide +kernel : (herbal.assemble ({} : Options).limits).accepted?.isSome = true)
  obtain ⟨hmint, hmintname⟩ : mint.type? = some .sample ∧ mint.resultName? = some "a" := by decide +kernel
  have hbrew : brew.type? = some .prompt := rfl
  have htea : tea.type? = some .knowledge := by decide +kernel
  have hfilter : herbal.sections.filter BookSection.isTask = [brew] := by
    simp [herbal, BookSection.isTask, hmint, hbrew, htea, SectionType.taskType]
  have hsections : mint ∈ herbal.sections ∧ tea ∈ herbal.sections := by simp [herbal]
  obtain ⟨-, htasks, hexamples, hsamples, hknowledge⟩ := assemble_sections {} herbal d hd
  refine ⟨d, hd, ?_, ?_, hknowledge tea hsections.2 htea⟩
  · rw [hfilter] at htasks
    obtain ⟨t, rest, hbecomes, hnil, htasks⟩ := List.forall₂_cons_left_iff.mp (htasks.resolve_right fun h => by cases h.1)
    rw [List.forall₂_nil_left_iff.mp hnil] at htasks
    exact ⟨t, htasks, hbecomes⟩
  · obtain ⟨q, ⟨hq, hname⟩, -⟩ := hsamples mint hsections.1 hmint
    have ha : q.name = "a" := (Option.some.inj (hmintname.symm.trans hname)).symm
    refine ⟨q, hq, ha, ?_⟩
    have hexample : herbal.sections.filter (·.exemplifies "a") = [mint] := by
      simp [herbal, BookSection.exemplifies, hmint, hmintname, hbrew, htea]
    rw [hexamples q hq, ha, hexample]
    rfl

end Book

end BookCompiler
