import BookCompiler.Proofs.Command.Refusal
import BookCompiler.Proofs.Command.RoundTrip
import BookCompiler.Proofs.Script.Faults

namespace BookCompiler

def StructureFault.isInternal : StructureFault → Bool
  | headLevel _ _ | sectionLevel _ _ => true
  | noHeading _ | emptyBook => false

/-- The errors in which the parts of the reader would not fit together. -/
def ParseError.isInternal : ParseError → Bool
  | structural fault => fault.isInternal
  | ambiguousCommand _ _ _ _ => true
  | invalidSection _ cause => cause.isInternal
  | invalidCommand _ _ cause => cause.isInternal
  | multiline _ | unknownCommand _ _ _ | notAllowed _ _ _ _ | missing _ | invalidValue _ | parameter _ => false

def ApplyError.isInternal : ApplyError → Bool
  | invalid (.foreign _ _) | notApplicable _ _ => true
  | invalid _ | redefinition _ _ _ | sectionTypeRedefinition _ _ | parameter _ => false

abbrev FailsInWriting {α : Type} (x : Except ParseError α) : Prop := FailsAs x fun e => e.isInternal = false

namespace Invocation

theorem next_inWriting (argument : Argument) (arguments : List String) : FailsInWriting (next argument arguments) := by
  cases arguments with
  | nil => exact .error rfl
  | cons first rest => exact .ok _

theorem noMore_inWriting (arguments : List String) : FailsInWriting (noMore arguments) := by
  cases arguments with
  | nil => exact .ok ()
  | cons first rest => exact .error rfl

theorem reference_inWriting (raw : String) : FailsInWriting (reference raw) := by
  unfold reference
  split
  · exact .ok _
  · exact .error rfl

theorem requirement_inWriting (key value : String) : FailsInWriting (requirement key value) := by
  have hvariant : FailsInWriting (modelVariant value) := by
    unfold modelVariant
    exact .ite (.ok _) (.ite (.ok _) (.ite (.error rfl) (.error rfl)))
  have htemperature : FailsInWriting (temperature value) := by
    unfold temperature
    split
    · exact .error rfl
    · exact .ite (.error rfl) (.ok _)
  refine .ite hvariant (.ite (.ok _) (.ite htemperature (.ite ?_ (.ite ?_ (.error rfl)))))
  · split
    · exact .ok _
    · exact .error rfl
  · split
    · exact .ok _
    · exact .error rfl

theorem sign_inWriting (raw : String) : FailsInWriting (sign raw) :=
  .ite (.ok _) (.ite (.ok _) (.ite (.ok _) (.error rfl)))

theorem amount_inWriting (raw : String) : FailsInWriting (amount raw) := by
  unfold amount
  split
  · exact .error rfl
  · refine .ite (.error rfl) ?_
    split
    · exact .error rfl
    · exact .ite (.ok _) (.error rfl)

theorem unit_inWriting (raw : String) : FailsInWriting (unit raw) := by
  refine .ite (.error rfl) ?_
  split
  · exact .ok _
  · split
    · exact .ok _
    · exact .error rfl
    · exact .error rfl

theorem foreachFormat_inWriting (rawFormat rawPart : String) : FailsInWriting (foreachFormat rawFormat rawPart) := by
  unfold foreachFormat
  split
  · exact .error rfl
  · refine .ite (.error rfl) ?_
    split
    · exact .ok _
    · exact .error rfl

theorem subparameters_inWriting (pieces : List (List Char)) : FailsInWriting (subparameters pieces) := by
  fun_induction subparameters pieces with
  | case1 => exact .ok _
  | case2 piece rest ih => exact (reference_inWriting _).bind fun _ _ => ih.bind fun _ _ => .ok _
  | case3 piece rest _ ih => exact (reference_inWriting _).bind fun _ _ => ih.bind fun _ _ => .ok _

theorem outputSubparameter_inWriting (format part : String) (outputs : List String) :
    FailsInWriting (outputSubparameter format part outputs) := by
  unfold outputSubparameter
  split
  · exact .ok _
  · exact .ite (.ok _) (.error rfl)
  · exact .error rfl

end Invocation

open Invocation in
theorem CommandKind.read_inWriting (kind : CommandKind) (i : Invocation) : FailsInWriting (kind.read i) := by
  cases kind with
  | bookVersion =>
      refine (next_inWriting _ _).bind fun _ _ => (noMore_inWriting _).bind fun _ _ => ?_
      split
      · exact .ok _
      · exact .error rfl
  | url =>
      refine (next_inWriting _ _).bind fun _ _ => (noMore_inWriting _).bind fun _ _ => ?_
      split
      · exact .error rfl
      · exact .ok _
  | formfactor =>
      rw [CommandKind.read, Invocation.formfactor]
      refine .ite (.error rfl) ?_
      split
      · exact .ok _
      · exact .error rfl
  | parameter =>
      refine (next_inWriting _ _).bind fun _ _ => (reference_inWriting _).bind fun _ _ => ?_
      dsimp only
      split
      · exact .ite (.bind (.error rfl) fun _ _ => .ok _) (.ok _)
      · exact .ok _
  | persona => exact .ite (.error rfl) (.ok _)
  | knowledge => exact .ite (.error rfl) (.ite (.error rfl) (.ok _))
  | sectionType =>
      rw [CommandKind.read, Invocation.sectionType]
      split
      · exact .ok _
      · exact .error rfl
      · exact .error rfl
  | model =>
      rw [CommandKind.read, Invocation.model]
      split
      · exact .error rfl
      · split
        · exact .error rfl
        · exact (requirement_inWriting _ _).map _
  | expectAmount =>
      refine (next_inWriting _ _).bind fun _ _ => (sign_inWriting _).bind fun _ _ => ?_
      refine (next_inWriting _ _).bind fun _ _ => (amount_inWriting _).bind fun _ _ => ?_
      refine (next_inWriting _ _).bind fun _ _ => (unit_inWriting _).bind fun _ _ => ?_
      exact (noMore_inWriting _).bind fun _ _ => .ok _
  | expectFormat => exact .ite (.ok _) (.error rfl)
  | joker =>
      refine (next_inWriting _ _).bind fun _ _ => (reference_inWriting _).bind fun _ _ => ?_
      exact (noMore_inWriting _).bind fun _ _ => .ok _
  | postprocess =>
      refine (next_inWriting _ _).bind fun _ _ => (noMore_inWriting _).bind fun _ _ => ?_
      exact .ite (.ok _) (.error rfl)
  | foreach =>
      refine (next_inWriting _ _).bind fun _ _ => (next_inWriting _ _).bind fun _ _ => ?_
      refine (foreachFormat_inWriting _ _).bind fun _ _ => (next_inWriting _ _).bind fun _ _ => ?_
      refine (reference_inWriting _).bind fun _ _ => (next_inWriting _ _).bind fun _ _ => ?_
      refine .ite (.bind (.error rfl) fun _ _ => ?_) ?_
      all_goals
        refine (subparameters_inWriting _).bind fun _ _ => ?_
        refine .ite (.bind (.error rfl) fun _ _ => ?_) ?_
        all_goals
          exact (outputSubparameter_inWriting _ _ _).bind fun _ _ => .ok _
  | action => exact .ok _
  | instrument => exact .ok _

namespace Registry

variable {place : Place}

theorem eq_of_shared_name {k l : CommandKind} {name : String} (hk : k.usableIn place = true) (hl : l.usableIn place = true)
    (hname : name ∈ k.knownNames) (hshared : name ∈ l.knownNames) : k = l := by
  have htable : ∀ place ∈ [Place.head, .task], ∀ k ∈ CommandKind.all, ∀ l ∈ CommandKind.all, k.usableIn place = true →
      l.usableIn place = true → (k.knownNames.any fun name => l.knownNames.contains name) = true → k = l := by
    decide +kernel
  have hplace : place ∈ [Place.head, .task] := by cases place <;> decide
  have hall (kind : CommandKind) : kind ∈ CommandKind.all := by cases kind <;> decide
  refine htable place hplace k (hall k) l (hall l) hk hl ?_
  exact List.any_eq_true.mpr ⟨name, hname, List.contains_iff_mem.mpr hshared⟩

/-- A name stands for one kind at most. -/
theorem lookup_unique (name : String) (place : Place) :
    builtIn.lookup name place = [] ∨ ∃ kind, builtIn.lookup name place = [kind] := by
  have hnodup : (builtIn.lookup name place).Nodup := List.Nodup.filter _ (by decide)
  have hsame : ∀ k ∈ builtIn.lookup name place, ∀ l ∈ builtIn.lookup name place, k = l := by
    rw [lookup_eq]
    intro k hk l hl
    obtain ⟨-, hk⟩ := List.mem_filter.mp hk
    obtain ⟨-, hl⟩ := List.mem_filter.mp hl
    rw [Bool.and_eq_true, List.contains_iff_mem] at hk hl
    exact eq_of_shared_name hk.2 hl.2 hk.1 hl.1
  match hlookup : builtIn.lookup name place with
  | [] => exact Or.inl rfl
  | [kind] => exact Or.inr ⟨kind, rfl⟩
  | k :: l :: rest =>
      rw [hlookup] at hnodup hsame
      have heq : k = l := hsame k (by simp) l (by simp)
      simp [heq] at hnodup

theorem firstNamed_unique {candidates : List Candidate} {kinds : List CommandKind} {position : NamePosition}
    (h : builtIn.firstNamed place candidates = some (kinds, position)) : ∃ kind, kinds = [kind] := by
  induction candidates with
  | nil => cases h
  | cons candidate rest ih =>
      rw [firstNamed] at h
      rcases lookup_unique candidate.name place with hnone | ⟨kind, hkind⟩
      · rw [hnone] at h
        exact ih h
      · rw [hkind] at h
        cases h
        exact ⟨kind, rfl⟩

theorem resolve_inWriting (place : Place) (line : CommandLine) : FailsInWriting (builtIn.resolve place line) := by
  rw [resolve]
  split
  · exact .ok _
  · rename_i kinds position hmany hfirst
    obtain ⟨kind, rfl⟩ := firstNamed_unique hfirst
    exact absurd rfl (hmany kind)
  · split
    · exact .error rfl
    · exact .error rfl

theorem read_inWriting (place : Place) (raw : String) : FailsInWriting (builtIn.read place raw) := by
  refine .bind (.ite (.error rfl) (.ok _)) fun line _ => (resolve_inWriting place line).bind fun r _ => ?_
  dsimp only
  split
  · exact .ok _
  · rename_i cause hcause
    exact .error (r.1.read_inWriting _ cause hcause)

end Registry

namespace Attempt

variable {ε ε' α β : Type} {P : ε → Prop}

/-- What holds of the reason, if the attempt is refused. -/
def RefusesAs (a : Attempt ε α) (P : ε → Prop) : Prop := ∀ e, a.refusal = some e → P e

theorem refusesAs_of_accepted {a : Attempt ε α} (h : a.refusal = none) : a.RefusesAs P := by
  intro e he
  rw [h] at he
  cases he

theorem refusesAs_refused (x : α) {e : ε} (h : P e) : (refused x e).RefusesAs P := by
  rintro d ⟨⟩
  exact h

theorem refusesAs_ofResult (x : α) (change : β → α) {r : Except ε β} (h : FailsAs r P) :
    (ofResult x change r).RefusesAs P := by
  cases r with
  | error e => exact refusesAs_refused x (h e rfl)
  | ok b => exact refusesAs_of_accepted rfl

theorem RefusesAs.map {a : Attempt ε α} (h : a.RefusesAs P) (f : α → β) : (a.map f).RefusesAs P := h

theorem RefusesAs.mapRefusal {Q : ε' → Prop} {a : Attempt ε α} (h : a.RefusesAs P) {f : ε → ε'}
    (hf : ∀ e, P e → Q (f e)) : (a.mapRefusal f).RefusesAs Q := by
  intro e' he'
  obtain ⟨e, he, rfl⟩ := Option.map_eq_some_iff.mp he'
  exact hf e (h e he)

end Attempt

open Attempt

abbrev Attempt.RefusesConflicts {α : Type} (a : Attempt ApplyError α) : Prop := a.RefusesAs fun e => e.isInternal = false

theorem settle_failsAs {α : Type} [DecidableEq α] (what : String) (text : α → String) (old : Option α) (new : α) :
    FailsAs (settle what text old new) fun e => e.isInternal = false := by
  cases old with
  | none => exact .ok _
  | some first => exact .ite (.ok _) (.error rfl)

theorem addRequirement_conflicts (scope : String) (old : Option Requirements) (new : Requirement) :
    (addRequirement scope old new).RefusesConflicts := by
  simp only [addRequirement]
  split
  · exact refusesAs_of_accepted rfl
  · split
    · exact refusesAs_of_accepted rfl
    · exact refusesAs_refused old rfl

theorem PipelineDraft.declare_conflicts (d : PipelineDraft) (declaration : Declaration) :
    (d.declare declaration).RefusesConflicts := by
  rw [declare]
  split
  · exact refusesAs_refused d rfl
  · exact RefusesAs.mapRefusal (P := fun _ => True) (fun _ _ => trivial) fun _ _ => rfl

theorem Command.applyToHead_conflicts {c : Command} (h : c.kind.usableIn .head = true) (d : PipelineDraft) :
    (c.applyToHead d).RefusesConflicts := by
  cases c with
  | bookVersion | url | formfactor => exact refusesAs_ofResult d _ (settle_failsAs _ _ _ _)
  | parameter declaration => exact d.declare_conflicts declaration
  | persona name description => exact refusesAs_of_accepted (d.registerPersona_yields name description).1
  | model requirement => exact (addRequirement_conflicts _ d.requirements requirement).map _
  | knowledge | action | instrument => exact refusesAs_of_accepted rfl
  | sectionType | expectAmount | expectFormat | joker | postprocess | foreach => cases h

namespace Workpiece

variable (w : Workpiece)

theorem Enacts.conflicts {type : SectionType} {a : Attempt ApplyError Workpiece} (h : w.Enacts type a) :
    a.RefusesConflicts := by
  cases h with
  | refuse type fault hfault =>
      refine refusesAs_refused w ?_
      cases fault with
      | foreign command handler => exact absurd rfl (hfault command handler)
      | _ => rfl
  | take | sample | knowledge => exact refusesAs_of_accepted rfl

theorem setType_conflicts (type : SectionType) : (w.setType type).RefusesConflicts := by
  rw [setType]
  split
  · exact refusesAs_refused w rfl
  · exact Enacts.conflicts _ (enacts _ type)

theorem setPersona_conflicts (name : String) (description : Option String) :
    (w.setPersona name description).RefusesConflicts := by
  rw [setPersona]
  split
  · rename_i e he
    exact refusesAs_refused w (settle_failsAs _ _ _ _ e he)
  · exact refusesAs_of_accepted ((w.pipeline.registerPersona_yields name description).map _).1

end Workpiece

theorem TaskDraft.expect_failsAs (d : TaskDraft) (sign : ExpectSign) (unit : ExpectUnit) (amount : UInt32) :
    FailsAs (d.expect sign unit amount) fun e => e.isInternal = false := by
  have hadd (b : Bounds) (what : String → String) :
      FailsAs (b.add what sign amount) fun e => e.isInternal = false := by
    have hsettle (bound : String) (old : Option UInt32) :
        FailsAs (settle (what bound) (fun n => toString n.toNat) old amount) fun e => e.isInternal = false :=
      settle_failsAs _ _ _ _
    cases sign with
    | exactly => exact (hsettle "Minimum" b.min).bind fun _ _ => (hsettle "Maximum" b.max).bind fun _ _ => .ok _
    | minimum => exact (hsettle "Minimum" b.min).bind fun _ _ => .ok _
    | maximum => exact (hsettle "Maximum" b.max).bind fun _ _ => .ok _
  refine (hadd _ _).bind fun bounds _ => ?_
  split
  · exact .error rfl
  · exact .ok _

theorem TaskDraft.addForeach_failsAs (d : TaskDraft) (loop : Foreach) :
    FailsAs (d.addForeach loop) fun e => e.isInternal = false := by
  unfold addForeach
  split
  · exact .ok _
  · exact .ite (.ok _) (.error rfl)

theorem Command.applyToTask_conflicts {c : Command} (h : c.kind.usableIn .task = true) (w : Workpiece) :
    (c.applyToTask w).RefusesConflicts := by
  cases c with
  | parameter declaration => exact (w.pipeline.declare_conflicts declaration).map _
  | persona name description => exact w.setPersona_conflicts name description
  | sectionType type => exact w.setType_conflicts type
  | model requirement => exact (addRequirement_conflicts _ w.task.requirements requirement).map _
  | expectAmount sign unit amount =>
      rw [applyToTask, w.expect_eq]
      exact refusesAs_ofResult w _ (w.task.expect_failsAs sign unit amount)
  | expectFormat => exact refusesAs_ofResult w _ (settle_failsAs _ _ _ _)
  | foreach loop => exact refusesAs_ofResult w _ (w.task.addForeach_failsAs loop)
  | joker | postprocess => exact refusesAs_of_accepted rfl
  | bookVersion | url | knowledge | formfactor | action | instrument => cases h

end BookCompiler
