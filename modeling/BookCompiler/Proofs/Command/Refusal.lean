import BookCompiler.Proofs.Command.Reapply

namespace BookCompiler

namespace Attempt

variable {ε α β : Type}

/-- Refused, the attempt leaves this behind. An accepted one may leave anything. -/
def Leaves (a : Attempt ε α) (x : α) : Prop := a.refusal.isSome = true → a.draft = x

theorem leaves_refused (x : α) (e : ε) : (refused x e).Leaves x := fun _ => rfl

theorem leaves_of_accepted {a : Attempt ε α} (h : a.refusal = none) (x : α) : a.Leaves x := by
  intro hrefused
  rw [h] at hrefused
  cases hrefused

theorem leaves_ofResult (x : α) (change : β → α) (r : Except ε β) : (ofResult x change r).Leaves x := by
  cases r with
  | error e => exact leaves_refused x e
  | ok b => exact leaves_of_accepted rfl x

theorem Leaves.map {a : Attempt ε α} {x : α} (h : a.Leaves x) (f : α → β) : (a.map f).Leaves (f x) :=
  fun hrefused => congrArg f (h hrefused)

end Attempt

open Attempt

theorem addRequirement_leaves (scope : String) (old : Option Requirements) (new : Requirement) :
    (addRequirement scope old new).Leaves old := by
  cases old with
  | none =>
      rw [addRequirement_none]
      exact leaves_of_accepted rfl none
  | some r =>
      simp only [addRequirement, Option.getD_some]
      split
      · exact leaves_of_accepted rfl _
      · split
        · exact leaves_of_accepted rfl _
        · exact leaves_refused _ _

theorem Command.applyToHead_leaves {c : Command} (hc : c.kind ≠ .parameter) (d : PipelineDraft) :
    (c.applyToHead d).Leaves d := by
  cases c with
  | parameter => exact absurd rfl hc
  | bookVersion | url | formfactor => exact leaves_ofResult d _ _
  | persona name description => exact leaves_of_accepted (d.registerPersona_yields name description).1 d
  | model requirement => exact (addRequirement_leaves _ d.requirements requirement).map _
  | knowledge | action | instrument => exact leaves_of_accepted rfl d
  | sectionType | expectAmount | expectFormat | joker | postprocess | foreach => exact leaves_refused d _

namespace Workpiece

variable (w : Workpiece)

theorem Enacts.leaves {type : SectionType} {a : Attempt ApplyError Workpiece} (h : w.Enacts type a) : a.Leaves w := by
  cases h with
  | refuse => exact leaves_refused w _
  | take | sample | knowledge => exact leaves_of_accepted rfl w

/-- A section that does not meet what a type asks has the type all the same, unless it had one before. -/
theorem setType_leaves (type : SectionType) :
    (w.setType type).Leaves
      (if w.task.sectionType.isSome then w else w.withTask { w.task with sectionType := some type }) := by
  rw [setType]
  cases w.task.sectionType with
  | some first => exact leaves_refused w _
  | none => exact Enacts.leaves _ (enacts _ type)

theorem setPersona_leaves (name : String) (description : Option String) : (w.setPersona name description).Leaves w := by
  rw [setPersona]
  split
  · exact leaves_refused w _
  · exact leaves_of_accepted ((w.pipeline.registerPersona_yields name description).map _).1 w

end Workpiece

theorem Command.applyToTask_leaves {c : Command} (hparameter : c.kind ≠ .parameter) (hsection : c.kind ≠ .sectionType)
    (w : Workpiece) : (c.applyToTask w).Leaves w := by
  cases c with
  | parameter => exact absurd rfl hparameter
  | sectionType => exact absurd rfl hsection
  | persona name description => exact w.setPersona_leaves name description
  | model requirement => exact (addRequirement_leaves _ w.task.requirements requirement).map _
  | expectAmount sign unit amount =>
      rw [applyToTask, w.expect_eq]
      exact leaves_ofResult w _ _
  | expectFormat | foreach => exact leaves_ofResult w _ _
  | joker | postprocess => exact leaves_of_accepted rfl w
  | bookVersion | url | knowledge | formfactor | action | instrument => exact leaves_refused w _

namespace CommandKind

theorem eq_of_refusal? {kind : CommandKind} {place : Place} {c : Command} (h : kind.refusal? place c = none) :
    c.kind = kind := by
  simp only [refusal?] at h
  split at h
  · cases h
  · split at h
    · cases h
    · rename_i hsame
      exact not_not.mp hsame

/-- A refused command changes nothing, whoever applies it. Only declarations of parameters do, and the type of a
section is set before the section is looked at. -/
theorem refused_intact (kind : CommandKind) (hkind : kind ≠ .parameter) (c : Command) (d : PipelineDraft)
    (w : Workpiece) :
    ((kind.applyToHead c d).refusal.isSome = true → (kind.applyToHead c d).draft = d) ∧
      ((kind.applyToTask c w).refusal.isSome = true →
        (kind.applyToTask c w).draft.pipeline = w.pipeline ∧
          ((kind.applyToTask c w).draft.task = w.task ∨
            ∃ type, kind = .sectionType ∧ c = .sectionType type ∧ w.task.sectionType = none ∧
              (kind.applyToTask c w).draft.task = { w.task with sectionType := some type })) := by
  constructor
  · rw [applyToHead]
    split
    · exact leaves_refused d _
    · rename_i hrefusal
      exact Command.applyToHead_leaves (eq_of_refusal? hrefusal ▸ hkind) d
  · rw [applyToTask]
    split
    · exact fun _ => ⟨rfl, Or.inl rfl⟩
    · rename_i hrefusal
      obtain rfl := eq_of_refusal? hrefusal
      intro hrefused
      by_cases hsection : c.kind = .sectionType
      · obtain ⟨type, rfl⟩ : ∃ type, c = .sectionType type := by
          cases c with
          | sectionType type => exact ⟨type, rfl⟩
          | _ => cases hsection
        have hleaves := w.setType_leaves type hrefused
        rw [Command.applyToTask, hleaves]
        cases htype : w.task.sectionType with
        | some first => exact ⟨rfl, Or.inl rfl⟩
        | none => exact ⟨rfl, Or.inr ⟨type, rfl, rfl, rfl, rfl⟩⟩
      · rw [Command.applyToTask_leaves hkind hsection w hrefused]
        exact ⟨rfl, Or.inl rfl⟩

def cappedPiece : Workpiece where
  task := { name := "a", title := "A", content := "x", requirements := some { maxTokens := some 200 } }
  pipeline := { title := "T", requirements := some { maxTokens := some 200 } }

theorem refused_intact_cappedPiece :
    ((model.applyToHead (.model (.maxTokens 100)) cappedPiece.pipeline).refusal.isSome = true ∧
      (model.applyToHead (.model (.maxTokens 100)) cappedPiece.pipeline).draft = cappedPiece.pipeline) ∧
    ((sectionType.applyToTask (.sectionType .script) cappedPiece).refusal.isSome = true ∧
      (sectionType.applyToTask (.sectionType .script) cappedPiece).draft.pipeline = cappedPiece.pipeline ∧
      (sectionType.applyToTask (.sectionType .script) cappedPiece).draft.task =
        { cappedPiece.task with sectionType := some .script }) := by
  have hhead : (model.applyToHead (.model (.maxTokens 100)) cappedPiece.pipeline).refusal.isSome = true := by decide
  have htask : (sectionType.applyToTask (.sectionType .script) cappedPiece).refusal.isSome = true := by decide
  have hmodel := refused_intact .model (by decide) (.model (.maxTokens 100)) cappedPiece.pipeline cappedPiece
  have hsection := refused_intact .sectionType (by decide) (.sectionType .script) cappedPiece.pipeline cappedPiece
  obtain ⟨hpipeline, -⟩ := hsection.2 htask
  exact ⟨⟨hhead, hmodel.1 hhead⟩, htask, hpipeline, by decide⟩

end CommandKind

end BookCompiler
