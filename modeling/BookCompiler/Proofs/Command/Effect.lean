import BookCompiler.Command.Apply
import BookCompiler.Proofs.Draft.Parameters

namespace BookCompiler

theorem settle_ok {α : Type} [DecidableEq α] {what : String} {text : α → String} {old new : Option α} {value : α}
    (h : settle what text old value = .ok new) : new = some value := by
  simp only [settle] at h
  split at h
  · cases h
    rfl
  · split at h
    · cases h
      rfl
    · cases h

theorem Attempt.ofResult_keeps {ε α β : Type} {I : α → Prop} {draft : α} {change : β → α} {r : Except ε β} (h : I draft)
    (hchange : ∀ b, r = .ok b → I (change b)) : I (ofResult draft change r).draft := by
  cases r with
  | error e => exact h
  | ok b => exact hchange b rfl

theorem TaskDraft.expect_eq_ok_iff {d : TaskDraft} {sign : ExpectSign} {unit : ExpectUnit} {amount : UInt32}
    {e : Expectations} : d.expect sign unit amount = .ok e ↔
      ∃ b : Bounds, (((d.expectations.get unit).getD {}).add
          (fun bound => bound ++ " " ++ unit.plural ++ " of the task \"" ++ d.title ++ "\"") sign amount = .ok b ∧
        b.crossed = none) ∧ e = d.expectations.set unit b := by
  simp only [expect, bind, Except.bind]
  generalize Bounds.add _ _ _ _ = added
  cases added with
  | error reason => simp
  | ok c =>
      dsimp only
      split
      · rename_i hc
        refine iff_of_false nofun ?_
        rintro ⟨b, ⟨⟨⟩, hb⟩, -⟩
        rw [hb] at hc
        cases hc
      · rename_i hc
        constructor
        · rintro ⟨⟩
          exact ⟨c, ⟨rfl, hc⟩, rfl⟩
        · rintro ⟨b, ⟨⟨⟩, -⟩, rfl⟩
          rfl

theorem TaskDraft.expect_of_get_eq_none {d : TaskDraft} {unit : ExpectUnit} (h : d.expectations.get unit = none)
    (sign : ExpectSign) (amount : UInt32) : ∃ e, d.expect sign unit amount = .ok e := by
  simp only [expect_eq_ok_iff, h, Option.getD_none]
  refine ⟨_, ⟨if sign = .maximum then none else some amount, if sign = .minimum then none else some amount⟩,
    ⟨?_, ?_⟩, rfl⟩
  · cases sign <;> rfl
  · cases sign <;> simp [Bounds.crossed]

theorem TaskDraft.expect_enter (d : TaskDraft) (sign : ExpectSign) (unit : ExpectUnit) (amount : UInt32) :
    { d with expectations := d.expectations.enter unit }.expect sign unit amount = d.expect sign unit amount := by
  simp only [expect, Expectations.enter, Expectations.get_set_self, Expectations.set_set, Option.getD_some]

/-- A refused amount finds its entry there, so making the entry first is never seen. -/
theorem Workpiece.expect_eq (w : Workpiece) (sign : ExpectSign) (unit : ExpectUnit) (amount : UInt32) :
    w.expect sign unit amount = .ofResult w (fun e => w.withTask { w.task with expectations := e })
      (w.task.expect sign unit amount) := by
  simp only [expect, TaskDraft.expect_enter]
  cases hentry : w.task.expectations.get unit with
  | none =>
      obtain ⟨e, he⟩ := TaskDraft.expect_of_get_eq_none hentry sign amount
      rw [he]
      rfl
  | some b =>
      rw [Expectations.enter_of_get_eq_some hentry]
      rfl

theorem Workpiece.expect_keeps {I : Workpiece → Prop} {w : Workpiece} {sign : ExpectSign} {unit : ExpectUnit}
    {amount : UInt32} (h : I w) (hchange : ∀ e, w.task.expect sign unit amount = .ok e →
      I (w.withTask { w.task with expectations := e })) : I (w.expect sign unit amount).draft := by
  rw [expect_eq]
  exact Attempt.ofResult_keeps h hchange

theorem addRequirement_none (scope : String) (new : Requirement) :
    addRequirement scope none new = .done (some (Requirements.set {} new)) := by
  cases new <;> rfl

theorem TaskDraft.expect_keeps {d : TaskDraft} {sign : ExpectSign} {unit : ExpectUnit} {amount : UInt32}
    {e : Expectations} {P : Bounds → Prop} (h : d.expect sign unit amount = .ok e)
    (hold : ∀ unit b, d.expectations.get unit = some b → P b)
    (hnew : ∀ old what b, Bounds.add old what sign amount = .ok b → b.crossed = none → P b) :
    ∀ unit b, e.get unit = some b → P b := by
  obtain ⟨new, ⟨hadd, hcrossed⟩, rfl⟩ := expect_eq_ok_iff.mp h
  intro other b hb
  by_cases hother : other = unit
  · rw [hother, Expectations.get_set_self, Option.some.injEq] at hb
    exact hb ▸ hnew _ _ _ hadd hcrossed
  · rw [Expectations.get_set_of_ne _ hother] at hb
    exact hold other b hb

def Command.declared? : Command → Option ParameterDraft
  | .parameter d => d.role.toOption.map fun role => { name := d.name, description := d.description, role }
  | _ => none

/-- What a command can do to the parameters and tasks of a draft: leave them alone, declare a
parameter, or add an example to one that is there. -/
inductive GraphStep (c : Command) (d : PipelineDraft) : PipelineDraft → Prop
  | frame (e : PipelineDraft) (hparameters : e.parameters = d.parameters) (htasks : e.tasks = d.tasks) :
      GraphStep c d e
  | declare (q : ParameterDraft) (hq : c.declared? = some q) : GraphStep c d (d.defineParameter q).draft
  | sample (p : ParameterDraft) (name value : String) (hp : d.parameter? name = some p) (hc : c = .sectionType .sample) :
      GraphStep c d (d.setParameter { p with examples := p.examples ++ [value] })

theorem PipelineDraft.declare_step (d : PipelineDraft) (declaration : Declaration) :
    GraphStep (.parameter declaration) d (d.declare declaration).draft := by
  simp only [declare]
  split
  · exact .frame _ rfl rfl
  · rename_i role hrole
    exact .declare _ (by simp [Command.declared?, hrole, Except.toOption])

theorem PipelineDraft.registerPersona_graph {ε : Type} (d : PipelineDraft) (name : String)
    (description : Option String) :
    (d.registerPersona name description : Attempt ε PipelineDraft).draft.parameters = d.parameters ∧
      (d.registerPersona name description : Attempt ε PipelineDraft).draft.tasks = d.tasks := by
  simp only [registerPersona]
  split
  · exact ⟨rfl, rfl⟩
  · split
    · exact ⟨rfl, rfl⟩
    · exact ⟨rfl, rfl⟩
    · split <;> exact ⟨rfl, rfl⟩

theorem PipelineDraft.addKnowledge_graph (d : PipelineDraft) (content : String) :
    (d.addKnowledge content).parameters = d.parameters ∧ (d.addKnowledge content).tasks = d.tasks := by
  simp only [addKnowledge]
  split <;> exact ⟨rfl, rfl⟩

theorem Command.applyToHead_step (c : Command) (d : PipelineDraft) :
    GraphStep c d (c.applyToHead d).draft := by
  cases c with
  | parameter declaration => exact d.declare_step declaration
  | persona name description =>
      exact .frame _ (d.registerPersona_graph name description).1 (d.registerPersona_graph name description).2
  | knowledge content => exact .frame _ (d.addKnowledge_graph content).1 (d.addKnowledge_graph content).2
  | bookVersion | url | formfactor =>
      simp only [applyToHead, Attempt.ofResult]
      split <;> exact .frame _ rfl rfl
  | model | action | instrument | sectionType | expectAmount | expectFormat | joker | postprocess | foreach =>
      exact .frame _ rfl rfl

namespace Workpiece

/-- What a type can do with a section: refuse it for what it lacks, take it as it is, or add its content to the examples
of a parameter or to the knowledge. -/
inductive Enacts (w : Workpiece) : SectionType → Attempt ApplyError Workpiece → Prop
  | refuse (type : SectionType) (fault : ApplyFault) (hfault : ∀ command handler, fault ≠ .foreign command handler) :
      Enacts w type (.refused w (.invalid fault))
  | take (type : SectionType) (notices : List Notice) (hsample : type ≠ .sample) (hknowledge : type ≠ .knowledge)
      (hcontent : ∀ t, type.taskType = some t → t ≠ .dialog → w.task.isBlank = false)
      (hresult : type.taskType = some .script → w.task.result.isSome = true) : Enacts w type { draft := w, notices }
  | sample (name : String) (p : ParameterDraft) (hcontent : w.task.isBlank = false) (hname : w.task.result = some name)
      (hp : w.pipeline.parameter? name = some p) :
      Enacts w .sample
        (.done (w.withPipeline (w.pipeline.setParameter { p with examples := p.examples ++ [w.task.content] })))
  | knowledge (hcontent : w.task.isBlank = false) :
      Enacts w .knowledge (.done (w.withPipeline (w.pipeline.addKnowledge w.task.content)))

variable {w : Workpiece} {type : SectionType} {a : Attempt ApplyError Workpiece}

theorem enacts_addSample (hcontent : w.task.isBlank = false) : w.Enacts .sample w.addSample := by
  rw [addSample]
  split
  · exact .refuse _ _ nofun
  · rename_i name hname
    split
    · exact .refuse _ _ nofun
    · rename_i p hp
      exact .sample name p hcontent hname hp

theorem enacts (w : Workpiece) (type : SectionType) : w.Enacts type (w.enact type) := by
  cases hblank : w.task.isBlank with
  | true =>
      cases type with
      | dialog =>
          refine .take _ _ nofun nofun (fun t ht hdialog => ?_) nofun
          cases ht
          exact absurd rfl hdialog
      | instrument | action => exact .take _ _ nofun nofun nofun nofun
      | prompt | simple | script | sample | knowledge =>
          simp only [enact, hblank, if_true]
          exact .refuse _ _ nofun
  | false =>
      cases type with
      | dialog | instrument | action => exact .take _ _ nofun nofun (fun _ _ _ => hblank) nofun
      | prompt | simple =>
          simp only [enact, hblank, Bool.false_eq_true, if_false]
          exact .take _ _ nofun nofun (fun _ _ _ => hblank) nofun
      | script =>
          simp only [enact, hblank, Bool.false_eq_true, if_false]
          split
          · exact .refuse _ _ nofun
          · rename_i hresult
            refine .take _ _ nofun nofun (fun _ _ _ => hblank) fun _ => ?_
            rwa [Option.isNone_iff_eq_none, ← ne_eq, ← Option.isSome_iff_ne_none] at hresult
      | sample =>
          simp only [enact, hblank, Bool.false_eq_true, if_false]
          exact enacts_addSample hblank
      | knowledge =>
          simp only [enact, hblank, Bool.false_eq_true, if_false]
          exact .knowledge hblank

theorem Enacts.step (h : w.Enacts type a) : GraphStep (.sectionType type) w.pipeline a.draft.pipeline := by
  cases h with
  | refuse | take => exact .frame _ rfl rfl
  | sample name p _ _ hp => exact .sample p name w.task.content hp rfl
  | knowledge =>
      obtain ⟨hparameters, htasks⟩ := w.pipeline.addKnowledge_graph w.task.content
      exact .frame _ hparameters htasks

theorem Enacts.task (h : w.Enacts type a) : a.draft.task = w.task := by
  cases h <;> rfl

end Workpiece

theorem Command.applyToTask_step (c : Command) (w : Workpiece) :
    GraphStep c w.pipeline (c.applyToTask w).draft.pipeline := by
  cases c with
  | parameter declaration => exact w.pipeline.declare_step declaration
  | persona name description =>
      simp only [applyToTask, Workpiece.setPersona]
      split
      · exact .frame _ rfl rfl
      · exact .frame _ (w.pipeline.registerPersona_graph name description).1
          (w.pipeline.registerPersona_graph name description).2
  | sectionType type =>
      simp only [applyToTask, Workpiece.setType]
      split
      · exact .frame _ rfl rfl
      · exact (Workpiece.enacts (w.withTask { w.task with sectionType := some type }) type).step
  | expectAmount | expectFormat | foreach =>
      simp only [applyToTask, Workpiece.expect_eq, Attempt.ofResult]
      split <;> exact .frame _ rfl rfl
  | joker name =>
      simp only [applyToTask, Attempt.done]
      split <;> exact .frame _ rfl rfl
  | model | postprocess | bookVersion | url | knowledge | formfactor | action | instrument =>
      exact .frame _ rfl rfl

end BookCompiler
