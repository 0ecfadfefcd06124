import BookCompiler.Proofs.Command.Reapply
import BookCompiler.Proofs.Draft.Slots

namespace BookCompiler

open Attempt

/-- The part of a draft that sections read and add to, apart from the order of the parameters. -/
structure Outline where
  slots : Slots
  tasks : List Task
  formfactor : Option String

def Outline.withSlots (o : Outline) (slots : Slots) : Outline := { o with slots }

namespace PipelineDraft

def outline (d : PipelineDraft) : Outline := ⟨d.parameter?, d.tasks, d.formfactor⟩

theorem SameGraph.outline {d e : PipelineDraft} (h : SameGraph d e) : e.outline = d.outline := by
  have hslots : e.parameter? = d.parameter? := by
    funext name
    rw [parameter?, h.parameters, parameter?]
  rw [PipelineDraft.outline, PipelineDraft.outline, hslots, h.tasks, h.formfactor]

theorem hasTask_iff (d : PipelineDraft) (name : String) : d.hasTask name = true ↔ name ∈ d.tasks.map Task.name := by
  simp [hasTask]

theorem declare_frame (d : PipelineDraft) (x : Declaration) :
    (d.declare x).draft.tasks = d.tasks ∧ (d.declare x).draft.formfactor = d.formfactor := by
  rw [declare]
  split
  · exact ⟨rfl, rfl⟩
  · refine ⟨d.defineParameter_tasks _, ?_⟩
    rw [defineParameter]
    split
    · rfl
    · split <;> rfl

theorem outline_declare (d : PipelineDraft) (x : Declaration) :
    (d.declare x).accepted?.map outline =
      (d.outline.slots.declare x).map d.outline.withSlots := by
  rw [outline, ← d.accepted?_declare x, Option.map_map]
  cases h : (d.declare x).accepted? with
  | none => rfl
  | some e =>
      obtain ⟨htasks, hformfactor⟩ := d.declare_frame x
      rw [(accepted?_eq_some.mp h).2] at htasks hformfactor
      simp [outline, Outline.withSlots, htasks, hformfactor]

end PipelineDraft

namespace Command

def declarations : Command → List Declaration
  | parameter x => [x]
  | _ => []

def OfTask : Command → Prop
  | sectionType type => type.taskType.isSome = true
  | _ => True

/-- What a command makes of a section that stands alone. -/
def shape? (c : Command) (t : TaskDraft) : Option TaskDraft :=
  match c with
  | parameter _ => some t
  | c => (c.applyToTask ⟨t, { title := "" }⟩).accepted?.map Workpiece.task

end Command

def SectionType.lacks (type : SectionType) (t : TaskDraft) : Bool :=
  match type with
  | dialog => false
  | script => t.isBlank || t.result.isNone
  | _ => t.isBlank

namespace Workpiece

def outline (w : Workpiece) : TaskDraft × Outline := (w.task, w.pipeline.outline)

variable (w : Workpiece)

theorem accepted?_enact {type : SectionType} (htype : type.taskType.isSome = true) :
    (w.enact type).accepted? = if type.lacks w.task then none else some w := by
  cases type with
  | dialog => rfl
  | prompt | simple => exact apply_ite accepted? _ _ _
  | script =>
      simp only [enact, SectionType.lacks, Bool.or_eq_true]
      by_cases hblank : w.task.isBlank = true
      · rw [if_pos hblank, if_pos (Or.inl hblank)]
        rfl
      · by_cases hresult : w.task.result.isNone = true
        · rw [if_neg hblank, if_pos hresult, if_pos (Or.inr hresult)]
          rfl
        · rw [if_neg hblank, if_neg hresult, if_neg (not_or.mpr ⟨hblank, hresult⟩)]
          rfl
  | sample | knowledge | instrument | action => cases htype

theorem accepted?_setType {type : SectionType} (htype : type.taskType.isSome = true) :
    (w.setType type).accepted? =
      if w.task.sectionType.isSome || type.lacks { w.task with sectionType := some type } then none
      else some (w.withTask { w.task with sectionType := some type }) := by
  rw [setType]
  cases w.task.sectionType with
  | some first => rfl
  | none => exact accepted?_enact _ htype

theorem outline_applyToTask_plain {c : Command} (hc : c.OfTask) (hplain : c.declarations = []) :
    (c.applyToTask w).accepted?.map outline = (c.shape? w.task).map fun t => (t, w.pipeline.outline) := by
  have hregister (d : PipelineDraft) (name : String) (description : Option String) :
      (d.registerPersona name description : Attempt ApplyError _).accepted? =
        some (d.registerPersona name description : Attempt ApplyError _).draft :=
    accepted?_eq_some.mpr (d.registerPersona_yields name description)
  cases c with
  | parameter x => cases hplain
  | persona name description =>
      simp only [Command.shape?, Command.applyToTask, setPersona]
      cases settle ("Persona of the task \"" ++ w.task.title ++ "\"") id w.task.persona name with
      | error e => rfl
      | ok persona =>
          simp only [accepted?_map, hregister, Option.map_some, outline,
            (w.pipeline.sameGraph_registerPersona name description).outline]
  | sectionType type =>
      simp only [Command.shape?, Command.applyToTask, accepted?_setType _ hc]
      cases w.task.sectionType.isSome || type.lacks { w.task with sectionType := some type } <;> rfl
  | expectAmount sign unit amount =>
      simp only [Command.shape?, Command.applyToTask, expect_eq]
      cases w.task.expect sign unit amount <;> rfl
  | expectFormat format =>
      simp only [Command.shape?, Command.applyToTask]
      cases settle ("Format of the task \"" ++ w.task.title ++ "\"") ResultFormat.name w.task.format format <;> rfl
  | foreach loop =>
      simp only [Command.shape?, Command.applyToTask]
      cases w.task.addForeach loop <;> rfl
  | joker name =>
      simp only [Command.shape?, Command.applyToTask]
      cases w.task.jokers.contains name <;> rfl
  | model r =>
      simp only [Command.shape?, Command.applyToTask, accepted?_map, Option.map_map]
      rfl
  | postprocess function => rfl
  | bookVersion | url | knowledge | formfactor | action | instrument => rfl

theorem outline_applyToTask {c : Command} (hc : c.OfTask) :
    (c.applyToTask w).accepted?.map outline =
      (c.shape? w.task).bind fun t => (w.pipeline.outline.slots.declareAll c.declarations).map fun slots =>
        (t, w.pipeline.outline.withSlots slots) := by
  cases hdeclarations : c.declarations with
  | nil =>
      rw [w.outline_applyToTask_plain hc hdeclarations]
      cases c.shape? w.task <;> rfl
  | cons x xs =>
      cases c with
      | parameter y =>
          cases hdeclarations
          have hdeclare := congrArg (Option.map fun o => (w.task, o)) (w.pipeline.outline_declare x)
          simpa [Command.applyToTask, Command.shape?, accepted?_map, outline, withPipeline, Slots.declareAll,
            Function.comp_def] using hdeclare
      | _ => cases hdeclarations

def run (cs : List Command) : Option Workpiece := cs.foldlM (fun w c => (Command.applyToTask c w).accepted?) w

theorem accepted?_applyCommand (c : WrittenCommand) :
    (applyCommand c w).accepted? = (c.command.applyToTask w).accepted? := by
  rw [applyCommand, owner?_builtIn]
  dsimp only
  rw [accepted?_mapRefusal, CommandKind.applyToTask]
  cases hcommand : c.command <;> rfl

end Workpiece

def TaskDraft.shapeAll (t : TaskDraft) (cs : List Command) : Option TaskDraft :=
  cs.foldlM (fun t c => Command.shape? c t) t

/-- The commands of a section, one after the other: what they make of the section and what they declare can be
told apart. -/
theorem Workpiece.outline_run {cs : List Command} (hcs : ∀ c ∈ cs, c.OfTask) (w : Workpiece) :
    (w.run cs).map outline =
      (w.task.shapeAll cs).bind fun t =>
        (w.pipeline.outline.slots.declareAll (cs.flatMap Command.declarations)).map fun slots =>
          (t, w.pipeline.outline.withSlots slots) := by
  induction cs generalizing w with
  | nil => rfl
  | cons c cs ih =>
      obtain ⟨hc, hrest⟩ := List.forall_mem_cons.mp hcs
      have hstep := w.outline_applyToTask hc
      simp only [run, TaskDraft.shapeAll, List.foldlM_cons, List.flatMap_cons, Slots.declareAll_append]
      cases hw : (c.applyToTask w).accepted? with
      | none =>
          rw [hw] at hstep
          cases hshape : c.shape? w.task with
          | none => rfl
          | some t =>
              rw [hshape] at hstep
              have hslots : w.pipeline.outline.slots.declareAll c.declarations = none := by simpa using hstep.symm
              simp [hslots]
      | some v =>
          rw [hw] at hstep
          obtain ⟨t, hshape, hdeclared⟩ := Option.bind_eq_some_iff.mp hstep.symm
          obtain ⟨slots, hslots, hv⟩ := Option.map_eq_some_iff.mp hdeclared
          obtain ⟨rfl, houtline⟩ := Prod.mk.inj hv
          simp only [hshape, hslots, Option.bind_eq_bind, Option.bind_some]
          rw [← run, ih hrest v, ← houtline]
          rfl

def Declaration.bare (name : String) : Declaration := ⟨name, none, false, false⟩

theorem Outline.map_declareAll (o : Outline) (xs : List Declaration) :
    (o.slots.declareAll xs).map o.withSlots = xs.foldlM (fun o x => (o.slots.declare x).map o.withSlots) o :=
  map_foldlM_option (fun _ _ _ => rfl) o.slots

theorem PipelineDraft.outline_declareUsed (s : BookSection) (state : String) (names : List String) (d : PipelineDraft) :
    (each (s.declareUsed state) names d).accepted?.map outline =
      (d.outline.slots.declareAll (names.map .bare)).map d.outline.withSlots := by
  have hstep (name : String) (d : PipelineDraft) : (s.declareUsed state name d).accepted?.map outline =
      (d.outline.slots.declare (.bare name)).map d.outline.withSlots := by
    rw [← d.outline_declare, BookSection.declareUsed, declare]
    exact congrArg _ ((accepted?_mapRefusal _ _).trans (accepted?_mapRefusal _ _).symm)
  rw [accepted?_each, Outline.map_declareAll, List.foldlM_map]
  exact map_foldlM_option (fun name _ d => hstep name d) d

namespace BookSection

variable (s : BookSection) (limits : Script.Limits)

def commands? : Option (List Command) :=
  (readCommands .task s.commandLines).1.toOption.map fun cs => (withSectionType cs).map WrittenCommand.command

theorem accepted?_apply (d : PipelineDraft) : (s.apply limits d).accepted? =
    s.openDraft.toOption.bind fun task => s.commands?.bind fun cs =>
      (Workpiece.run ⟨task, d⟩ cs).bind fun w => (s.addTask limits w).accepted? := by
  rw [apply, commands?]
  cases s.openDraft with
  | error e => rfl
  | ok task =>
      obtain ⟨result, notices⟩ := readCommands .task s.commandLines
      cases result with
      | error e => rfl
      | ok cs =>
          have hrun : (each Workpiece.applyCommand (withSectionType cs) ⟨task, d⟩).accepted? =
              Workpiece.run ⟨task, d⟩ ((withSectionType cs).map WrittenCommand.command) := by
            simp only [accepted?_each, Workpiece.accepted?_applyCommand, Workpiece.run, List.foldlM_map]
          simp only [Except.toOption, Option.map_some, Option.bind_some, ← hrun]
          obtain ⟨w, refusal, notices'⟩ := each Workpiece.applyCommand (withSectionType cs) ⟨task, d⟩
          cases refusal with
          | none => exact accepted?_andThen _ _
          | some e => rfl

def finish? (t : Task) : Option Task :=
  (s.settleLanguage "" t).toOption.bind fun t =>
    (t.neededNames limits).toOption.map fun dependencies => { t with dependencies }

theorem toOption_finishTask (state : String) (d : PipelineDraft) (t : Task) :
    (s.finishTask limits state d t).toOption = if d.hasTask t.name then none else s.finish? limits t := by
  rw [finishTask]
  split
  · rfl
  · rw [finish?]
    have hlanguage : (s.settleLanguage state t).toOption = (s.settleLanguage "" t).toOption := by
      simp only [settleLanguage]
      split
      · rfl
      · split <;> rfl
    rw [← hlanguage]
    cases s.settleLanguage state t with
    | error e => rfl
    | ok u =>
        change _ = (u.neededNames limits).toOption.map _
        dsimp only [bind, Except.bind]
        cases u.neededNames limits <;> rfl

theorem outline_addTask {w : Workpiece} {t : Task} (hbuild : w.task.build = some t) :
    (s.addTask limits w).accepted?.map PipelineDraft.outline =
      (if w.pipeline.hasTask t.name then none else s.finish? limits t).bind fun t =>
        (w.pipeline.outline.slots.declareAll (t.usedNames.map .bare)).map fun slots =>
          { w.pipeline.outline.withSlots slots with tasks := w.pipeline.tasks ++ [t] } := by
  rw [← s.toOption_finishTask limits w.task.snapshot w.pipeline t, addTask, hbuild]
  dsimp only
  cases s.finishTask limits w.task.snapshot w.pipeline t with
  | error e => rfl
  | ok u =>
      have hdeclared := w.pipeline.outline_declareUsed s w.task.snapshot u.usedNames
      have hlast (e : Option PipelineDraft) :
          (e.bind fun d => (done { d with tasks := d.tasks ++ [u] } : Attempt CompileError _).accepted?).map
            PipelineDraft.outline =
          (e.map PipelineDraft.outline).map fun o => { o with tasks := o.tasks ++ [u] } := by
        cases e <;> rfl
      dsimp only [Except.toOption, Option.bind_some]
      rw [accepted?_andThen, hlast]
      exact (congrArg _ hdeclared).trans (Option.map_map ..)

theorem name_of_finish? {t u : Task} (h : s.finish? limits t = some u) : u.name = t.name := by
  obtain ⟨v, hv, hu⟩ := Option.bind_eq_some_iff.mp h
  obtain ⟨dependencies, -, rfl⟩ := Option.map_eq_some_iff.mp hu
  obtain ⟨language, rfl⟩ := settleLanguage_ok (eq_ok_of_toOption hv)
  rfl

end BookSection

namespace Command

def sectionType? : Command → Option SectionType
  | sectionType type => some type
  | _ => none

theorem sectionType_of_plain {c : Command} (hc : c.sectionType? = none) (w : Workpiece) :
    (c.applyToTask w).draft.task.sectionType = w.task.sectionType := by
  cases c with
  | sectionType type => cases hc
  | persona name description =>
      simp only [applyToTask, Workpiece.setPersona]
      split <;> rfl
  | expectAmount | expectFormat | foreach =>
      simp only [applyToTask, Workpiece.expect_eq, Attempt.ofResult]
      split <;> rfl
  | joker name =>
      simp only [applyToTask, done]
      split <;> rfl
  | parameter | model | postprocess | bookVersion | url | knowledge | formfactor | action | instrument => rfl

theorem sectionType_applyToTask {c : Command} {w v : Workpiece} (h : (c.applyToTask w).accepted? = some v) :
    v.task.sectionType.toList = w.task.sectionType.toList ++ c.sectionType?.toList := by
  obtain ⟨hok, rfl⟩ := accepted?_eq_some.mp h
  cases hc : c.sectionType? with
  | none => rw [sectionType_of_plain hc, Option.toList_none, List.append_nil]
  | some type =>
      cases c with
      | sectionType type' =>
          cases hc
          simp only [applyToTask, Workpiece.setType] at hok ⊢
          split at hok
          · cases hok
          · rename_i hnone
            rw [(Workpiece.enacts _ type).task, hnone]
            rfl
      | _ => cases hc

theorem sectionType_shape? {c : Command} {t u : TaskDraft} (h : c.shape? t = some u) :
    u.sectionType = c.sectionType?.or t.sectionType := by
  by_cases hparameter : ∃ x, c = parameter x
  · obtain ⟨x, rfl⟩ := hparameter
    cases h
    rfl
  · have hshape : c.shape? t = (c.applyToTask ⟨t, { title := "" }⟩).accepted?.map Workpiece.task := by
      cases c with
      | parameter x => exact absurd ⟨x, rfl⟩ hparameter
      | _ => rfl
    rw [hshape] at h
    obtain ⟨v, hv, rfl⟩ := Option.map_eq_some_iff.mp h
    have htypes := sectionType_applyToTask hv
    cases hc : c.sectionType? <;> cases ht : t.sectionType <;> cases hu : v.task.sectionType <;> simp_all

end Command

theorem TaskDraft.isSome_build (t : TaskDraft) : t.build.isSome = (t.sectionType.bind SectionType.taskType).isSome := by
  rw [build]
  cases t.sectionType with
  | none => rfl
  | some type => cases h : type.taskType <;> simp [h]

theorem TaskDraft.build_of_shapeAll {cs : List Command} (hcs : ∀ c ∈ cs, c.OfTask) {t u : TaskDraft}
    (h : t.shapeAll cs = some u) (htype : t.build.isSome = true ∨ ∃ type, .sectionType type ∈ cs) : u.build.isSome = true := by
  induction cs generalizing t with
  | nil =>
      cases h
      exact htype.resolve_right (by simp)
  | cons c cs ih =>
      obtain ⟨hc, hrest⟩ := List.forall_mem_cons.mp hcs
      obtain ⟨v, hv, hu⟩ := Option.bind_eq_some_iff.mp (List.foldlM_cons.symm.trans h)
      refine ih hrest hu ?_
      have hsection := Command.sectionType_shape? hv
      cases c with
      | sectionType type => exact Or.inl (by rw [isSome_build, hsection]; exact hc)
      | _ =>
          have hsame : v.sectionType = t.sectionType := hsection
          rw [isSome_build, hsame, ← isSome_build]
          exact htype.imp_right fun ⟨type, hmem⟩ => ⟨type, (List.mem_cons.mp hmem).resolve_left (by simp)⟩

/-- What a section adds to a pipeline: a task and declarations of parameters. -/
structure Part where
  task : Task
  declarations : List Declaration

/-- A draft can take one more part if the task is new and the declarations fit to those that are there. -/
def Outline.add (o : Outline) (x : Part) : Option Outline :=
  if x.task.name ∈ o.tasks.map Task.name then none
  else (o.slots.declareAll x.declarations).map fun slots =>
    { o.withSlots slots with tasks := o.tasks ++ [x.task] }

namespace BookSection

def part? (limits : Script.Limits) (s : BookSection) : Option Part :=
  s.openDraft.toOption.bind fun draft => s.commands?.bind fun cs => (draft.shapeAll cs).bind fun shaped =>
    shaped.build.bind fun t => (s.finish? limits t).map fun t =>
      ⟨t, cs.flatMap Command.declarations ++ t.usedNames.map .bare⟩

def OfTask (s : BookSection) : Prop :=
  ∀ line ∈ s.commandLines, ∀ type, Registry.builtIn.read .task line = .ok (.sectionType type) →
    type.taskType.isSome = true

theorem toOption_bind_sectionType? (r : Except ParseError Command) (type : SectionType) :
    r.toOption.bind Command.sectionType? = some type ↔ r = .ok (.sectionType type) := by
  cases r with
  | error e => simp [Except.toOption]
  | ok c => cases c <;> simp [Except.toOption, Command.sectionType?]

instance (s : BookSection) : Decidable s.OfTask :=
  decidable_of_iff (∀ line ∈ s.commandLines,
      ∀ type ∈ (Registry.builtIn.read .task line).toOption.bind Command.sectionType?, type.taskType.isSome = true) (by
    simp only [Option.mem_def, toOption_bind_sectionType?, OfTask])

variable {s : BookSection} {limits : Script.Limits}

theorem commands?_eq_some {cs : List Command} (h : s.commands? = some cs) :
    ∃ ws, (readCommands .task s.commandLines).1 = .ok ws ∧ cs = (withSectionType ws).map WrittenCommand.command := by
  obtain ⟨ws, hws, rfl⟩ := Option.map_eq_some_iff.mp h
  exact ⟨ws, eq_ok_of_toOption hws, rfl⟩

theorem OfTask.commands (hs : s.OfTask) {cs : List Command} (h : s.commands? = some cs) :
    (∀ c ∈ cs, c.OfTask) ∧ ∃ type, .sectionType type ∈ cs := by
  obtain ⟨ws, hread, rfl⟩ := commands?_eq_some h
  constructor
  · intro c hc
    obtain ⟨w, hw, rfl⟩ := List.mem_map.mp hc
    rcases gives_of_mem hread hw with hdefault | ⟨line, hline, hcommand⟩
    · rw [hdefault]
      rfl
    · cases hkind : w.command with
      | sectionType type => exact hs line hline type (hkind ▸ hcommand)
      | _ => trivial
  · rw [withSectionType]
    split
    · rename_i hany
      obtain ⟨w, hw, hkind⟩ := List.any_eq_true.mp hany
      cases hcommand : w.command with
      | sectionType type => exact ⟨type, List.mem_map.mpr ⟨w, hw, hcommand⟩⟩
      | _ => simp [hcommand, Command.kind] at hkind
    · exact ⟨.prompt, List.mem_cons_self⟩

/-- A section adds the same part to every pipeline. -/
theorem outline_apply (hs : s.OfTask) (d : PipelineDraft) :
    (s.apply limits d).accepted?.map PipelineDraft.outline = (s.part? limits).bind d.outline.add := by
  rw [accepted?_apply, part?]
  cases s.openDraft.toOption with
  | none => rfl
  | some draft =>
      cases hcs : s.commands? with
      | none => rfl
      | some cs =>
          obtain ⟨hall, htype⟩ := hs.commands hcs
          have hrun := Workpiece.outline_run hall ⟨draft, d⟩
          simp only [Option.bind_some]
          cases hw : Workpiece.run ⟨draft, d⟩ cs with
          | none =>
              rw [hw] at hrun
              cases hshape : draft.shapeAll cs with
              | none => rfl
              | some shaped =>
                  have hslots : d.outline.slots.declareAll (cs.flatMap Command.declarations) = none := by
                    simpa [hshape] using hrun.symm
                  have hadd (t : Task) (xs : List Declaration) :
                      d.outline.add ⟨t, cs.flatMap Command.declarations ++ xs⟩ = none := by
                    simp [Outline.add, Slots.declareAll_append, hslots]
                  cases hbuild : shaped.build with
                  | none => simp [hbuild]
                  | some t => cases hfinish : s.finish? limits t <;> simp [hbuild, hfinish, hadd]
          | some w =>
              rw [hw] at hrun
              obtain ⟨shaped, hshape, hdeclared⟩ := Option.bind_eq_some_iff.mp hrun.symm
              obtain ⟨slots, hslots, heq⟩ := Option.map_eq_some_iff.mp hdeclared
              obtain ⟨rfl, houtline⟩ := Prod.mk.inj heq
              obtain ⟨t, hbuild⟩ := Option.isSome_iff_exists.mp (TaskDraft.build_of_shapeAll hall hshape (Or.inr htype))
              have htasks : w.pipeline.tasks = d.tasks := congrArg Outline.tasks houtline.symm
              have hname : w.pipeline.hasTask t.name = true ↔ t.name ∈ d.outline.tasks.map Task.name := by
                rw [PipelineDraft.hasTask_iff, htasks]
                rfl
              simp only [Option.bind_some, s.outline_addTask limits hbuild, hname, hshape, hbuild, ← houtline, htasks]
              cases hfinish : s.finish? limits t with
              | none => simp
              | some u =>
                  simp only [Option.map_some, Option.bind_some, Outline.add, s.name_of_finish? limits hfinish,
                    Slots.declareAll_append, hslots]
                  split <;> rfl

theorem outline_each {ss : List BookSection} (hss : ∀ s ∈ ss, s.OfTask) (d : PipelineDraft) :
    (each (apply limits) ss d).accepted?.map PipelineDraft.outline =
      ss.foldlM (fun o s => (part? limits s).bind o.add) d.outline := by
  rw [accepted?_each]
  exact map_foldlM_option (fun s hs d => outline_apply (hss s hs) d) d

end BookSection

namespace Outline

def addAll (o : Outline) (xs : List Part) : Option Outline := xs.foldlM add o

theorem add_eq_some {o e : Outline} {x : Part} : o.add x = some e ↔
    x.task.name ∉ o.tasks.map Task.name ∧ ∃ slots, o.slots.declareAll x.declarations = some slots ∧
      e = { o.withSlots slots with tasks := o.tasks ++ [x.task] } := by
  rw [add]
  split
  · rename_i htaken
    simp [htaken]
  · rename_i hnew
    simp [hnew, eq_comm]

theorem addAll_eq_some {o e : Outline} {xs : List Part} : o.addAll xs = some e ↔
    ((xs.map Part.task).map Task.name).Nodup ∧ (∀ x ∈ xs, x.task.name ∉ o.tasks.map Task.name) ∧
      ∃ slots, o.slots.declareAll (xs.flatMap Part.declarations) = some slots ∧
        e = { o.withSlots slots with tasks := o.tasks ++ xs.map Part.task } := by
  induction xs generalizing o with
  | nil =>
      simp [addAll, Slots.declareAll, withSlots, eq_comm]
  | cons x xs ih =>
      have hnames : (o.tasks ++ [x.task]).map Task.name = o.tasks.map Task.name ++ [x.task.name] := by simp
      rw [addAll, List.foldlM_cons, Option.bind_eq_bind, Option.bind_eq_some_iff, List.map_cons, List.map_cons,
        List.nodup_cons, List.forall_mem_cons, List.flatMap_cons, Slots.declareAll_append]
      constructor
      · rintro ⟨first, hfirst, hrest⟩
        obtain ⟨hnew, slots, hslots, rfl⟩ := add_eq_some.mp hfirst
        obtain ⟨hnodup, hfresh, rest, hdeclared, rfl⟩ := ih.mp hrest
        simp only [hnames, List.mem_append, List.mem_singleton, not_or] at hfresh
        refine ⟨⟨fun hmem => ?_, hnodup⟩, ⟨hnew, fun y hy => (hfresh y hy).1⟩, rest, ?_, ?_⟩
        · rw [List.map_map] at hmem
          obtain ⟨y, hy, hname⟩ := List.mem_map.mp hmem
          exact (hfresh y hy).2 hname
        · rw [hslots]
          exact hdeclared
        · simp [withSlots]
      · rintro ⟨⟨hhead, hnodup⟩, ⟨hnew, hfresh⟩, rest, hdeclared, rfl⟩
        obtain ⟨slots, hslots, hdeclared⟩ := Option.bind_eq_some_iff.mp hdeclared
        refine ⟨_, add_eq_some.mpr ⟨hnew, slots, hslots, rfl⟩, ih.mpr ⟨hnodup, fun y hy => ?_, rest, hdeclared, ?_⟩⟩
        · simp only [hnames, List.mem_append, List.mem_singleton, not_or]
          refine ⟨hfresh y hy, fun hname => hhead ?_⟩
          rw [← hname, List.map_map]
          exact List.mem_map_of_mem hy
        · simp [withSlots]

theorem tasks_of_addAll {o e : Outline} {xs : List Part} (h : o.addAll xs = some e) :
    e.tasks = o.tasks ++ xs.map Part.task := by
  obtain ⟨-, -, slots, -, rfl⟩ := addAll_eq_some.mp h
  rfl

/-- Parts can be added in any order. Only the order of the tasks shows which it was. -/
theorem addAll_perm {o e : Outline} {xs ys : List Part} (hperm : ys.Perm xs) (h : o.addAll xs = some e) :
    o.addAll ys = some { e with tasks := o.tasks ++ ys.map Part.task } := by
  obtain ⟨hnodup, hfresh, slots, hslots, rfl⟩ := addAll_eq_some.mp h
  refine addAll_eq_some.mpr ⟨?_, fun y hy => hfresh y (hperm.mem_iff.mp hy), slots, ?_, rfl⟩
  · exact ((hperm.map Part.task).map Task.name).nodup_iff.mpr hnodup
  · rwa [o.slots.declareAll_perm (hperm.flatMap_right Part.declarations)]

end Outline

end BookCompiler
