import BookCompiler.Proofs.Command.Amounts
import BookCompiler.Proofs.Command.Effect
import BookCompiler.Proofs.Command.Sound
import BookCompiler.Proofs.Draft.Growth

namespace BookCompiler

theorem settle_kept {α : Type} [DecidableEq α] {what : String} {text : α → String} {old new : Option α} {value : α}
    (h : settle what text old value = .ok new) : Kept (· = ·) old new := by
  apply agree_kept
  rw [← toOption_settle what text, h]
  rfl

theorem Requirements.set_grows {r : Requirements} {new : Requirement} (h : r.like? new = none) : r.Grows (r.set new) := by
  cases new with
  | variant v => exact { Grows.refl r with variant := (Option.map_eq_none_iff.mp h) ▸ kept_none _ }
  | name n => exact { Grows.refl r with name := (Option.map_eq_none_iff.mp h) ▸ kept_none _ }
  | temperature t => exact { Grows.refl r with temperature := (Option.map_eq_none_iff.mp h) ▸ kept_none _ }
  | maxTokens m => exact { Grows.refl r with maxTokens := (Option.map_eq_none_iff.mp h) ▸ kept_none _ }
  | seed s => exact { Grows.refl r with seed := (Option.map_eq_none_iff.mp h) ▸ kept_none _ }

theorem addRequirement_grows (scope : String) (old : Option Requirements) (new : Requirement) :
    Kept Requirements.Grows old (addRequirement scope old new).draft := by
  cases old with
  | none => exact kept_none _
  | some r =>
      simp only [addRequirement, Option.getD_some]
      split
      · rename_i hnew
        exact kept_some (Requirements.set_grows hnew)
      · split <;> exact kept_some (Requirements.Grows.refl r)

theorem Bounds.add_grows {b c : Bounds} {what : String → String} {sign : ExpectSign} {amount : UInt32}
    (h : b.add what sign amount = .ok c) : b.Grows c := by
  have hadd := b.toOption_add what sign amount
  rw [h] at hadd
  obtain ⟨min, hmin, hadd⟩ := Option.bind_eq_some_iff.mp hadd.symm
  obtain ⟨max, hmax, rfl⟩ := Option.map_eq_some_iff.mp hadd
  exact ⟨agree_kept hmin, agree_kept hmax⟩

theorem TaskDraft.expect_grows {d : TaskDraft} {sign : ExpectSign} {unit : ExpectUnit} {amount : UInt32}
    {e : Expectations} (h : d.expect sign unit amount = .ok e) (other : ExpectUnit) :
    Kept Bounds.Grows (d.expectations.get other) (e.get other) := by
  obtain ⟨bounds, ⟨hbounds, -⟩, rfl⟩ := expect_eq_ok_iff.mp h
  by_cases hother : other = unit
  · subst hother
    rw [Expectations.get_set_self]
    cases hold : d.expectations.get other with
    | none => exact kept_none _
    | some b =>
        rw [hold] at hbounds
        exact kept_some (Bounds.add_grows hbounds)
  · rw [Expectations.get_set_of_ne _ hother]
    exact .refl Bounds.Grows.refl _

theorem TaskDraft.addForeach_kept {d : TaskDraft} {loop : Foreach} {f : Option Foreach}
    (h : d.addForeach loop = .ok f) : Kept (· = ·) d.foreach f := by
  rw [addForeach] at h
  cases hold : d.foreach with
  | none => exact kept_none f
  | some first =>
      rw [hold] at h
      dsimp only at h
      split at h
      · rename_i hsame
        cases h
        exact kept_some hsame
      · cases h

namespace PipelineDraft

theorem declare_grows (d : PipelineDraft) (x : Declaration) : d.Grows (d.declare x).draft := by
  rw [declare]
  split
  · exact .refl d
  · exact d.defineParameter_grows _

theorem addKnowledge_grows (d : PipelineDraft) (content : String) : d.Grows (d.addKnowledge content) := by
  rw [addKnowledge]
  split
  · exact .refl d
  · exact { Grows.refl d with knowledgeSources := List.prefix_append _ _ }

end PipelineDraft

theorem Command.applyToHead_grows (c : Command) (d : PipelineDraft) : d.Grows (c.applyToHead d).draft := by
  have hsame := PipelineDraft.Grows.refl d
  cases c with
  | bookVersion version =>
      exact Attempt.ofResult_keeps hsame fun v hv => { hsame with bookVersion := settle_kept hv }
  | url address => exact Attempt.ofResult_keeps hsame fun u hu => { hsame with url := settle_kept hu }
  | formfactor name => exact Attempt.ofResult_keeps hsame fun f hf => { hsame with formfactor := settle_kept hf }
  | parameter declaration => exact d.declare_grows declaration
  | persona name description => exact d.registerPersona_grows name description
  | knowledge content => exact d.addKnowledge_grows content
  | model requirement => exact { hsame with requirements := addRequirement_grows _ _ _ }
  | action | instrument | sectionType | expectAmount | expectFormat | joker | postprocess | foreach => exact hsame

namespace Workpiece

structure Grows (w v : Workpiece) : Prop where
  task : w.task.Grows v.task
  pipeline : w.pipeline.Grows v.pipeline

theorem Grows.refl (w : Workpiece) : w.Grows w := ⟨.refl w.task, .refl w.pipeline⟩

theorem Grows.trans {w v u : Workpiece} (h : w.Grows v) (h' : v.Grows u) : w.Grows u :=
  ⟨h.task.trans h'.task, h.pipeline.trans h'.pipeline⟩

variable (w : Workpiece)

theorem grows_withTask {t : TaskDraft} (h : w.task.Grows t) : w.Grows (w.withTask t) := ⟨h, .refl w.pipeline⟩

theorem grows_withPipeline {d : PipelineDraft} (h : w.pipeline.Grows d) : w.Grows (w.withPipeline d) :=
  ⟨.refl w.task, h⟩

theorem Enacts.grows {type : SectionType} {a : Attempt ApplyError Workpiece} (h : w.Enacts type a) : w.Grows a.draft := by
  cases h with
  | refuse | take => exact .refl w
  | sample name p _ _ hp =>
      have hp' : p.Grows { p with examples := p.examples ++ [w.task.content] } :=
        ⟨rfl, .rfl, .rfl, List.prefix_append _ _⟩
      exact w.grows_withPipeline (PipelineDraft.setParameter_grows hp hp')
  | knowledge => exact w.grows_withPipeline (w.pipeline.addKnowledge_grows w.task.content)

theorem setType_grows (type : SectionType) : w.Grows (w.setType type).draft := by
  rw [setType]
  split
  · exact .refl w
  · rename_i hnone
    have htyped : w.task.Grows { w.task with sectionType := some type } :=
      { TaskDraft.Grows.refl w.task with sectionType := hnone ▸ kept_none _ }
    exact (w.grows_withTask htyped).trans (Enacts.grows _ (enacts _ type))

theorem setPersona_grows (name : String) (description : Option String) :
    w.Grows (w.setPersona name description).draft := by
  rw [setPersona]
  split
  · exact .refl w
  · rename_i persona hpersona
    exact ⟨{ TaskDraft.Grows.refl w.task with persona := settle_kept hpersona },
      w.pipeline.registerPersona_grows name description⟩

end Workpiece

theorem Command.applyToTask_grows (c : Command) (w : Workpiece) : w.Grows (c.applyToTask w).draft := by
  have hsame := Workpiece.Grows.refl w
  cases c with
  | parameter declaration => exact w.grows_withPipeline (w.pipeline.declare_grows declaration)
  | persona name description => exact w.setPersona_grows name description
  | sectionType type => exact w.setType_grows type
  | model requirement => exact w.grows_withTask { hsame.task with requirements := addRequirement_grows _ _ _ }
  | expectAmount sign unit amount =>
      exact Workpiece.expect_keeps hsame fun e he =>
        w.grows_withTask { hsame.task with expectations := TaskDraft.expect_grows he }
  | expectFormat format =>
      exact Attempt.ofResult_keeps hsame fun f hf => w.grows_withTask { hsame.task with format := settle_kept hf }
  | foreach loop =>
      exact Attempt.ofResult_keeps hsame fun f hf =>
        w.grows_withTask { hsame.task with foreach := TaskDraft.addForeach_kept hf }
  | joker name =>
      simp only [applyToTask, Attempt.done]
      split
      · exact hsame
      · exact w.grows_withTask { hsame.task with jokers := List.prefix_append _ _ }
  | postprocess function =>
      exact w.grows_withTask { hsame.task with postprocessing := List.prefix_append _ _ }
  | bookVersion | url | knowledge | formfactor | action | instrument => exact hsame

namespace CommandKind

variable (kind : CommandKind) (c : Command)

theorem applyToHead_grows (d : PipelineDraft) : d.Grows (kind.applyToHead c d).draft := by
  rw [applyToHead]
  split
  · exact .refl d
  · exact c.applyToHead_grows d

theorem applyToTask_grows (w : Workpiece) : w.Grows (kind.applyToTask c w).draft := by
  rw [applyToTask]
  split
  · exact .refl w
  · exact c.applyToTask_grows w

end CommandKind

/-- A command in the hands of some kind, its own or another, in one of the two places. -/
structure Move where
  place : Place
  kind : CommandKind
  command : Command
  deriving Repr, DecidableEq

namespace Workpiece

def attempt (w : Workpiece) (m : Move) : Attempt ApplyError Workpiece :=
  match m.place with
  | .head => (m.kind.applyToHead m.command w.pipeline).map w.withPipeline
  | .task => m.kind.applyToTask m.command w

def after (w : Workpiece) (moves : List Move) : Workpiece := moves.foldl (fun w m => (w.attempt m).draft) w

theorem attempt_grows (w : Workpiece) (m : Move) : w.Grows (w.attempt m).draft := by
  rw [attempt]
  split
  · exact w.grows_withPipeline (m.kind.applyToHead_grows m.command w.pipeline)
  · exact m.kind.applyToTask_grows m.command w

/-- Whatever commands are tried in whatever way, nothing that is set is lost or changed. -/
theorem grows_after (w : Workpiece) (moves : List Move) :
    w.Grows (w.after moves) ∧ w.pipeline.names <+: (w.after moves).pipeline.names ∧
      w.pipeline.personas.map Persona.name <+: (w.after moves).pipeline.personas.map Persona.name := by
  have hgrows : w.Grows (w.after moves) := by
    induction moves generalizing w with
    | nil => exact .refl w
    | cons m moves ih => exact (w.attempt_grows m).trans (ih (w.attempt m).draft)
  exact ⟨hgrows, hgrows.pipeline.names, hgrows.pipeline.personas.map_isPrefix fun _ _ h => h.name⟩

end Workpiece

end BookCompiler
