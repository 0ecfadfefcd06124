import BookCompiler.Compile.Write
import BookCompiler.Proofs.Compile.Validity

namespace BookCompiler

namespace Attempt

variable {ε ε' α β : Type}

/-- An attempt that is accepted and leaves this behind. -/
def Yields (a : Attempt ε α) (draft : α) : Prop := a.refusal = none ∧ a.draft = draft

theorem yields_done (draft : α) : (done draft : Attempt ε α).Yields draft := ⟨rfl, rfl⟩

theorem Yields.andThen {a : Attempt ε α} {f : α → Attempt ε α} {x y : α} (ha : a.Yields x) (hf : (f x).Yields y) :
    (a.andThen f).Yields y := by
  obtain ⟨hok, rfl⟩ := ha
  exact ⟨(andThen_accepted a f).mpr ⟨hok, hf.1⟩, (andThen_draft hok f).trans hf.2⟩

theorem Yields.map {a : Attempt ε α} {x : α} (h : a.Yields x) (f : α → β) : (a.map f).Yields (f x) :=
  ⟨h.1, congrArg f h.2⟩

theorem Yields.mapRefusal {a : Attempt ε α} {x : α} (h : a.Yields x) (f : ε → ε') : (a.mapRefusal f).Yields x :=
  ⟨by rw [Attempt.mapRefusal, h.1]; rfl, h.2⟩

theorem yields_each_nil (f : β → α → Attempt ε α) (a : α) : (each f [] a).Yields a := yields_done a

theorem yields_each_cons {f : β → α → Attempt ε α} {b : β} {bs : List β} {x y z : α} (hb : (f b x).Yields y)
    (hbs : (each f bs y).Yields z) : (each f (b :: bs) x).Yields z :=
  hb.andThen hbs

theorem yields_each_singleton {f : β → α → Attempt ε α} {b : β} {x y : α} (h : (f b x).Yields y) :
    (each f [b] x).Yields y :=
  yields_each_cons h (yields_each_nil f y)

theorem yields_each_toList {γ : Type} {f : β → α → Attempt ε α} (g : γ → β) {x : α} {y : Option γ → α} (o : Option γ)
    (hnone : y none = x) (hsome : ∀ c, (f (g c) x).Yields (y (some c))) : (each f (o.map g).toList x).Yields (y o) := by
  cases o with
  | none => exact ⟨rfl, hnone.symm⟩
  | some c => exact yields_each_singleton (hsome c)

theorem yields_each_append {f : β → α → Attempt ε α} {bs cs : List β} {x y z : α} (hbs : (each f bs x).Yields y)
    (hcs : (each f cs y).Yields z) : (each f (bs ++ cs) x).Yields z := by
  induction bs generalizing x with
  | nil =>
      rw [← hbs.2] at hcs
      exact hcs
  | cons b bs ih =>
      obtain ⟨hfirst, hrest⟩ := (andThen_accepted _ _).mp hbs.1
      have hdraft : (each f bs (f b x).draft).draft = y := (andThen_draft hfirst _).symm.trans hbs.2
      exact yields_each_cons ⟨hfirst, rfl⟩ (ih ⟨hrest, hdraft⟩)

theorem each_append_accepted {f : β → α → Attempt ε α} {bs cs : List β} {x y : α} (hbs : (each f bs x).Yields y)
    (h : (each f (bs ++ cs) x).refusal = none) : (each f cs y).refusal = none := by
  induction bs generalizing x with
  | nil =>
      rw [← hbs.2]
      exact h
  | cons b bs ih =>
      obtain ⟨hfirst, hrest⟩ := (andThen_accepted _ _).mp hbs.1
      have hdraft : (each f bs (f b x).draft).draft = y := (andThen_draft hfirst _).symm.trans hbs.2
      exact ih ⟨hrest, hdraft⟩ ((andThen_accepted _ _).mp h).2

theorem Yields.each_of_map {γ : Type} {f : β → α → Attempt ε α} {g : γ → α → Attempt ε' α} {r : γ → β}
    {cs : List γ} (step : ∀ c ∈ cs, ∀ x y, (f (r c) x).Yields y → (g c x).Yields y) {x y : α}
    (h : (each f (cs.map r) x).Yields y) : (each g cs x).Yields y := by
  induction cs generalizing x with
  | nil => exact ⟨rfl, h.2⟩
  | cons c cs ih =>
      obtain ⟨hc, hcs⟩ := List.forall_mem_cons.mp step
      obtain ⟨hfirst, hrest⟩ := (andThen_accepted _ _).mp h.1
      have hdraft := (andThen_draft hfirst _).symm.trans h.2
      exact yields_each_cons (hc x _ ⟨hfirst, rfl⟩) (ih hcs ⟨hrest, hdraft⟩)

end Attempt

open Attempt

namespace Requirements

theorem each_toList (scope : String) (r : Requirements) :
    (each (fun new old => addRequirement scope old new) r.toList none).Yields
      (if r.isEmpty then none else some r) := by
  obtain ⟨v, n, t, m, s⟩ := r
  cases v <;> cases n <;> cases t <;> cases m <;> cases s <;> exact ⟨rfl, rfl⟩

end Requirements

namespace Bounds

structure Sound (b : Bounds) : Prop where
  bounded : b.min.isSome = true ∨ b.max.isSome = true
  ordered : b.crossed = none

end Bounds

namespace Expectations

theorem units_nodup (e : Expectations) : (e.toList.map Prod.fst).Nodup := by
  have hunits : e.toList.map Prod.fst = ExpectUnit.all.filter fun unit => (e.get unit).isSome := by
    rw [toList, List.map_filterMap, ← List.filterMap_eq_filter]
    congr 1
    funext unit
    cases h : e.get unit <;> simp [Option.guard, h]
  rw [hunits]
  exact List.Nodup.filter _ (by decide)

end Expectations

namespace PipelineDraft

theorem registerPersona_yields {ε : Type} (d : PipelineDraft) (name : String) (description : Option String) :
    (d.registerPersona name description : Attempt ε PipelineDraft).Yields
      (d.registerPersona name description : Attempt ε PipelineDraft).draft := by
  refine ⟨?_, rfl⟩
  simp only [registerPersona]
  split
  · rfl
  · split
    · rfl
    · rfl
    · split <;> rfl

def greet (d : PipelineDraft) (persona : Option String) : PipelineDraft :=
  match persona with
  | none => d
  | some name => (d.registerPersona name none : Attempt ApplyError PipelineDraft).draft

end PipelineDraft

namespace Workpiece

variable {w : Workpiece}

theorem each_model {rs : List Requirement} {r : Option Requirements}
    (h : (each (fun new old => addRequirement ("the task \"" ++ w.task.title ++ "\"") old new) rs
      w.task.requirements).Yields r) :
    (each Command.applyToTask (rs.map .model) w).Yields (w.withTask { w.task with requirements := r }) := by
  induction rs generalizing w with
  | nil =>
      rw [← h.2]
      exact yields_each_nil _ w
  | cons new rs ih =>
      obtain ⟨hfirst, hrest⟩ := (andThen_accepted _ _).mp h.1
      have hdraft := (andThen_draft hfirst _).symm.trans h.2
      have hstep : ((Command.model new).applyToTask w).Yields (w.withTask { w.task with
          requirements := (addRequirement ("the task \"" ++ w.task.title ++ "\"") w.task.requirements new).draft }) :=
        Yields.map ⟨hfirst, rfl⟩ _
      exact yields_each_cons hstep (ih (w := w.withTask _) ⟨hrest, hdraft⟩)

theorem each_jokers {names : List String} (h : (w.task.jokers ++ names).Nodup) :
    (each Command.applyToTask (names.map .joker) w).Yields
      (w.withTask { w.task with jokers := w.task.jokers ++ names }) := by
  induction names generalizing w with
  | nil =>
      rw [List.append_nil]
      exact yields_each_nil _ w
  | cons name names ih =>
      have hnew : w.task.jokers.contains name = false := by
        rw [List.nodup_append] at h
        simpa using fun hmem => h.2.2 name hmem name List.mem_cons_self rfl
      have hstep : ((Command.joker name).applyToTask w).Yields
          (w.withTask { w.task with jokers := w.task.jokers ++ [name] }) := by
        rw [Command.applyToTask, hnew]
        exact yields_done _
      rw [List.append_cons] at h ⊢
      exact yields_each_cons hstep (ih (w := w.withTask _) h)

theorem each_postprocess (functions : List String) :
    (each Command.applyToTask (functions.map .postprocess) w).Yields
      (w.withTask { w.task with postprocessing := w.task.postprocessing ++ functions }) := by
  induction functions generalizing w with
  | nil =>
      rw [List.append_nil]
      exact yields_each_nil _ w
  | cons function functions ih =>
      rw [List.append_cons]
      exact yields_each_cons (yields_done _) (ih (w := w.withTask _))

theorem each_foreach (loop : Option Foreach) (h : w.task.foreach = none) :
    (each Command.applyToTask (loop.map .foreach).toList w).Yields (w.withTask { w.task with foreach := loop }) := by
  refine yields_each_toList (y := fun loop => w.withTask { w.task with foreach := loop }) _ loop ?_ fun f => ?_
  · rw [← h]
    rfl
  · rw [Command.applyToTask, TaskDraft.addForeach, h]
    exact yields_done _

theorem each_format (format : Option ResultFormat) (h : w.task.format = none) :
    (each Command.applyToTask (format.map .expectFormat).toList w).Yields (w.withTask { w.task with format }) := by
  refine yields_each_toList (y := fun format => w.withTask { w.task with format }) _ format ?_ fun f => ?_
  · rw [← h]
    rfl
  · rw [Command.applyToTask, h]
    exact yields_done _

theorem applyToTask_expectAmount {sign : ExpectSign} {unit : ExpectUnit} {amount : UInt32} {b : Bounds}
    (hadd : ∀ what, ((w.task.expectations.get unit).getD {}).add what sign amount = .ok b) (hb : b.crossed = none) :
    ((Command.expectAmount sign unit amount).applyToTask w).Yields
      (w.withTask { w.task with expectations := w.task.expectations.set unit b }) := by
  have hexpect : w.task.expect sign unit amount = .ok (w.task.expectations.set unit b) := by
    simp only [TaskDraft.expect, hadd, bind, Except.bind, hb]
    rfl
  rw [Command.applyToTask, w.expect_eq, hexpect]
  exact yields_done _

theorem each_bounds {unit : ExpectUnit} {b : Bounds} (hb : b.Sound) (hnew : w.task.expectations.get unit = none) :
    (each Command.applyToTask (b.commands unit) w).Yields
      (w.withTask { w.task with expectations := w.task.expectations.set unit b }) := by
  obtain ⟨min, max⟩ := b
  cases min with
  | none =>
      cases max with
      | none => simpa using hb.bounded
      | some n =>
          apply yields_each_singleton
          apply applyToTask_expectAmount (fun what => ?_) hb.ordered
          rw [hnew]
          rfl
  | some m =>
      cases max with
      | none =>
          apply yields_each_singleton
          apply applyToTask_expectAmount (fun what => ?_) hb.ordered
          rw [hnew]
          rfl
      | some n =>
          by_cases hmn : m = n
          · subst hmn
            rw [Bounds.commands, if_pos (by simp)]
            apply yields_each_singleton
            apply applyToTask_expectAmount (fun what => ?_) hb.ordered
            rw [hnew]
            rfl
          · rw [Bounds.commands, if_neg (by simpa using hmn)]
            have hfirst : ((Command.expectAmount .minimum unit m).applyToTask w).Yields (w.withTask
                { w.task with expectations := w.task.expectations.set unit ⟨some m, none⟩ }) := by
              apply applyToTask_expectAmount (fun what => ?_) rfl
              rw [hnew]
              rfl
            rw [← Expectations.set_set w.task.expectations unit ⟨some m, none⟩]
            apply yields_each_cons hfirst
            apply yields_each_singleton
            apply applyToTask_expectAmount (w := w.withTask _) (fun what => ?_) hb.ordered
            rw [withTask, Expectations.get_set_self]
            rfl

theorem each_expectations {entries : List (ExpectUnit × Bounds)} (hsound : ∀ x ∈ entries, x.2.Sound)
    (hnodup : (entries.map Prod.fst).Nodup) (hnew : ∀ x ∈ entries, w.task.expectations.get x.1 = none) :
    (each Command.applyToTask (entries.flatMap fun x => x.2.commands x.1) w).Yields
      (w.withTask { w.task with expectations := w.task.expectations.setAll entries }) := by
  induction entries generalizing w with
  | nil => exact yields_each_nil _ w
  | cons x entries ih =>
      obtain ⟨hx, hrest⟩ := List.forall_mem_cons.mp hsound
      obtain ⟨hunit, hunits⟩ := List.nodup_cons.mp hnodup
      have hfirst := each_bounds hx (hnew x List.mem_cons_self)
      refine yields_each_append hfirst (ih (w := w.withTask _) hrest hunits ?_)
      intro y hy
      have hne : y.1 ≠ x.1 := fun e => hunit (e ▸ List.mem_map_of_mem hy)
      rw [withTask, Expectations.get_set_of_ne _ hne]
      exact hnew y (List.mem_cons_of_mem x hy)

theorem each_persona (persona : Option String) (h : w.task.persona = none) :
    (each Command.applyToTask (persona.map fun name => .persona name none).toList w).Yields
      ⟨{ w.task with persona }, w.pipeline.greet persona⟩ := by
  refine yields_each_toList (y := fun persona => Workpiece.mk { w.task with persona } (w.pipeline.greet persona)) _
    persona ?_ fun name => ?_
  · change Workpiece.mk { w.task with persona := none } w.pipeline = w
    rw [← h]
  · rw [Command.applyToTask, setPersona, h]
    exact Yields.map (w.pipeline.registerPersona_yields name none) _

theorem applyToTask_sectionType {type : TaskType} (h : w.task.sectionType = none)
    (hcontent : type ≠ .dialog → w.task.isBlank = false) (hresult : type = .script → w.task.result.isSome = true) :
    ((Command.sectionType (.ofTaskType type)).applyToTask w).Yields
      (w.withTask { w.task with sectionType := some (.ofTaskType type) }) := by
  have hblank (type' : SectionType) (hne : type ≠ .dialog) :
      (w.withTask { w.task with sectionType := some type' }).task.isBlank = false := hcontent hne
  rw [Command.applyToTask, setType, h]
  cases type with
  | dialog => exact yields_done _
  | prompt | simple =>
      simp only [SectionType.ofTaskType, enact, hblank _ (by decide)]
      exact yields_done _
  | script =>
      have hnone : w.task.result.isNone = false := by simpa using hresult rfl
      simp only [SectionType.ofTaskType, enact, hblank _ (by decide)]
      simp only [withTask, hnone]
      exact yields_done _

end Workpiece

theorem Command.kind_of_mem_map {α : Type} {f : α → Command} {l : List α} {kind : CommandKind} {c : Command}
    (h : c ∈ l.map f) (hf : ∀ a, (f a).kind = kind) : c.kind = kind := by
  obtain ⟨a, -, rfl⟩ := List.mem_map.mp h
  exact hf a

theorem Command.kind_of_mem_toList {α : Type} {f : α → Command} {o : Option α} {kind : CommandKind} {c : Command}
    (h : c ∈ (o.map f).toList) (hf : ∀ a, (f a).kind = kind) : c.kind = kind := by
  rw [Option.toList_map] at h
  exact kind_of_mem_map h hf

theorem CommandKind.filterMap_write? {kind : CommandKind} {cs : List Command} (h : ∀ c ∈ cs, c.kind = kind) :
    cs.filterMap kind.write? = cs.map Command.write := by
  rw [← List.filterMap_eq_map]
  apply List.filterMap_congr
  intro c hc
  rw [write?, if_pos (h c hc)]
  rfl

namespace Task

theorem kind_of_mem_takeFromTask {t : Task} {kind : CommandKind} {c : Command} (h : c ∈ kind.takeFromTask t) :
    c.kind = kind := by
  cases kind with
  | bookVersion | url | formfactor | parameter | knowledge | action | instrument => cases h
  | persona | expectFormat | foreach => exact Command.kind_of_mem_toList h fun _ => rfl
  | model | joker | postprocess => exact Command.kind_of_mem_map h fun _ => rfl
  | sectionType => rw [List.mem_singleton.mp h, Command.kind]
  | expectAmount =>
      obtain ⟨⟨unit, b⟩, -, hc⟩ := List.mem_flatMap.mp h
      change c ∈ b.commands unit at hc
      rw [Bounds.commands] at hc
      split at hc
      · exact Command.kind_of_mem_toList hc fun _ => rfl
      · rcases List.mem_append.mp hc with hc | hc
        · exact Command.kind_of_mem_toList hc fun _ => rfl
        · exact Command.kind_of_mem_toList hc fun _ => rfl

def commands (t : Task) : List Command := (CommandKind.allIn .task).flatMap (·.takeFromTask t)

/-- What the commands of a section can make of a task. -/
structure Rebuildable (t : Task) : Prop where
  content : t.type ≠ .dialog → (Text.trim t.content.toList).isEmpty = false
  result : t.type = .script → t.result.isSome = true
  jokers : t.jokers.Nodup
  expectations : ∀ unit b, t.expectations.get unit = some b → b.Sound
  requirements : ∀ r ∈ t.requirements, r.isEmpty = false

def blank (t : Task) : TaskDraft where
  name := t.name
  title := t.title
  description := t.description
  content := t.content
  language := t.language
  result := t.result

/-- The draft of a task with all that its commands say. -/
def toDraft (t : Task) : TaskDraft where
  name := t.name
  title := t.title
  description := t.description
  content := t.content
  language := t.language
  result := t.result
  sectionType := some (.ofTaskType t.type)
  persona := t.persona
  requirements := t.requirements
  expectations := t.expectations
  format := t.format
  jokers := t.jokers
  postprocessing := t.postprocessing
  foreach := t.foreach

variable {t : Task}

theorem usableIn_of_mem_commands {t : Task} {c : Command} (h : c ∈ t.commands) : c.kind.usableIn .task = true := by
  obtain ⟨kind, hkind, hc⟩ := List.mem_flatMap.mp h
  rw [kind_of_mem_takeFromTask hc]
  simpa using (List.mem_filter.mp hkind).2

theorem commands_eq (t : Task) : t.commands =
    (t.persona.map fun name => .persona name none).toList ++ ([.sectionType (.ofTaskType t.type)] ++
      (((t.requirements.map Requirements.toList).getD []).map .model ++
        ((t.expectations.toList.flatMap fun x => x.2.commands x.1) ++ ((t.format.map .expectFormat).toList ++
          (t.jokers.map .joker ++ (t.postprocessing.map .postprocess ++ (t.foreach.map .foreach).toList)))))) := by
  have hkinds : CommandKind.allIn .task =
      [.parameter, .persona, .sectionType, .model, .expectAmount, .expectFormat, .joker, .postprocess, .foreach] := by
    decide
  rw [commands, hkinds]
  simp only [List.flatMap_cons, List.flatMap_nil, CommandKind.takeFromTask, List.nil_append, List.append_nil]

/-- The commands of a task restore it. -/
theorem Rebuildable.each_commands (h : t.Rebuildable) (d : PipelineDraft) :
    (each Command.applyToTask t.commands ⟨t.blank, d⟩).Yields ⟨t.toDraft, d.greet t.persona⟩ := by
  have hmodel (scope : String) :
      (each (fun new old => addRequirement scope old new) ((t.requirements.map Requirements.toList).getD [])
        none).Yields t.requirements := by
    cases hr : t.requirements with
    | none => exact yields_each_nil _ _
    | some r =>
        have hyields := r.each_toList scope
        rwa [h.requirements r hr] at hyields
  have hsound : ∀ x ∈ t.expectations.toList, x.2.Sound := fun x hx =>
    h.expectations x.1 x.2 ((t.expectations.mem_toList x.1 x.2).mp hx)
  have hnew : ∀ x ∈ t.expectations.toList, Expectations.get {} x.1 = none := fun x _ => by cases x.1 <;> rfl
  rw [commands_eq]
  refine yields_each_append (Workpiece.each_persona t.persona rfl) ?_
  refine yields_each_append (yields_each_singleton
    (Workpiece.applyToTask_sectionType rfl h.content h.result)) ?_
  refine yields_each_append (Workpiece.each_model (w := Workpiece.withTask _ _) (hmodel _)) ?_
  refine yields_each_append (Workpiece.each_expectations (w := Workpiece.withTask _ _) hsound
    t.expectations.units_nodup hnew) ?_
  refine yields_each_append (Workpiece.each_format (w := Workpiece.withTask _ _) t.format rfl) ?_
  refine yields_each_append (Workpiece.each_jokers (w := Workpiece.withTask _ _) h.jokers) ?_
  refine yields_each_append (Workpiece.each_postprocess t.postprocessing) ?_
  convert Workpiece.each_foreach t.foreach ?_ using 1
  · simp only [Workpiece.withTask, toDraft, blank, Expectations.setAll_toList, List.nil_append]
  · rfl

theorem Rebuildable.build_toDraft (h : t.Rebuildable) :
    t.toDraft.build = some { t with dependencies := [], prepared := none } := by
  have hrequirements : t.requirements.filter (!·.isEmpty) = t.requirements := by
    cases hr : t.requirements with
    | none => rfl
    | some r => simp [h.requirements r hr]
  simp only [TaskDraft.build, toDraft, bind, Option.bind, SectionType.taskType_ofTaskType, hrequirements]

end Task

def Parameter.sketch (q : Parameter) : ParameterDraft where
  name := q.name
  description := q.description
  role := if q.role = .intermediate then none else some q.role

theorem Parameter.role_declaration (q : Parameter) : q.declaration.role = .ok q.sketch.role := by
  obtain ⟨name, description, role, examples⟩ := q
  cases role <;> rfl

namespace PipelineDraft

variable {d : PipelineDraft}

theorem each_bookVersion (version : Option String) (h : d.bookVersion = none) :
    (each Command.applyToHead (version.map .bookVersion).toList d).Yields { d with bookVersion := version } := by
  refine yields_each_toList (y := fun v => { d with bookVersion := v }) _ version ?_ fun v => ?_
  · rw [← h]
  · rw [Command.applyToHead, h]
    exact yields_done _

theorem each_url (url : Option String) (h : d.url = none) :
    (each Command.applyToHead (url.map .url).toList d).Yields { d with url } := by
  refine yields_each_toList (y := fun url => { d with url }) _ url ?_ fun u => ?_
  · rw [← h]
  · rw [Command.applyToHead, h]
    exact yields_done _

theorem each_formfactor (formfactor : Option String) (h : d.formfactor = none) :
    (each Command.applyToHead (formfactor.map .formfactor).toList d).Yields { d with formfactor } := by
  refine yields_each_toList (y := fun formfactor => { d with formfactor }) _ formfactor ?_ fun f => ?_
  · rw [← h]
  · rw [Command.applyToHead, h]
    exact yields_done _

theorem defineParameter_new {q : ParameterDraft} (hfree : isReserved q.name = false) (hnew : q.name ∉ d.names) :
    (d.defineParameter q).Yields { d with parameters := d.parameters ++ [q] } := by
  rw [defineParameter, hfree, (d.parameter?_eq_none q.name).mpr hnew]
  exact yields_done _

theorem each_parameter {qs : List Parameter} (hfree : ∀ q ∈ qs, isReserved q.name = false)
    (hnodup : (d.names ++ qs.map Parameter.name).Nodup) :
    (each Command.applyToHead (qs.map fun q => .parameter q.declaration) d).Yields
      { d with parameters := d.parameters ++ qs.map Parameter.sketch } := by
  induction qs generalizing d with
  | nil =>
      refine ⟨rfl, ?_⟩
      rw [List.map_nil (f := Parameter.sketch), List.append_nil]
      rfl
  | cons q qs ih =>
      obtain ⟨hq, hrest⟩ := List.forall_mem_cons.mp hfree
      have hnew : q.name ∉ d.names := by
        rw [List.nodup_append] at hnodup
        exact fun hmem => hnodup.2.2 _ hmem _ List.mem_cons_self rfl
      have hstep : ((Command.parameter q.declaration).applyToHead d).Yields
          { d with parameters := d.parameters ++ [q.sketch] } := by
        rw [Command.applyToHead, declare, q.role_declaration]
        exact (defineParameter_new (q := q.sketch) hq hnew).mapRefusal _
      have hnames : (d.names ++ [q.name] ++ qs.map Parameter.name).Nodup := by
        rwa [List.map_cons, List.append_cons] at hnodup
      rw [List.map_cons, List.map_cons, List.append_cons]
      refine yields_each_cons hstep (ih hrest ?_)
      simpa [names, Parameter.sketch] using hnames

def namePersonas (personas : List Persona) (d : PipelineDraft) : PipelineDraft :=
  personas.foldl (fun d q => (d.registerPersona q.name q.description : Attempt ApplyError PipelineDraft).draft) d

theorem each_personas (personas : List Persona) :
    (each Command.applyToHead (personas.map fun q => .persona q.name q.description) d).Yields
      (d.namePersonas personas) := by
  induction personas generalizing d with
  | nil => exact yields_each_nil _ d
  | cons q personas ih => exact yields_each_cons (d.registerPersona_yields q.name q.description) ih

theorem each_knowledge (contents : List String) :
    (each Command.applyToHead (contents.map .knowledge) d).Yields (contents.foldl addKnowledge d) := by
  induction contents generalizing d with
  | nil => exact yields_each_nil _ d
  | cons content contents ih => exact yields_each_cons (yields_done _) ih

theorem each_requirements {rs : List Requirement} {r : Option Requirements}
    (h : (each (fun new old => addRequirement "the pipeline head" old new) rs d.requirements).Yields r) :
    (each Command.applyToHead (rs.map .model) d).Yields { d with requirements := r } := by
  induction rs generalizing d with
  | nil =>
      rw [← h.2]
      exact yields_each_nil _ d
  | cons new rs ih =>
      obtain ⟨hfirst, hrest⟩ := (andThen_accepted _ _).mp h.1
      have hdraft := (andThen_draft hfirst _).symm.trans h.2
      have hstep : ((Command.model new).applyToHead d).Yields { d with
          requirements := (addRequirement "the pipeline head" d.requirements new).draft } :=
        Yields.map ⟨hfirst, rfl⟩ _
      exact yields_each_cons hstep (ih ⟨hrest, hdraft⟩)

structure SameGraph (d e : PipelineDraft) : Prop where
  parameters : e.parameters = d.parameters
  tasks : e.tasks = d.tasks
  formfactor : e.formfactor = d.formfactor
  requirements : e.requirements = d.requirements

theorem SameGraph.refl (d : PipelineDraft) : SameGraph d d := ⟨rfl, rfl, rfl, rfl⟩

theorem SameGraph.trans {d e f : PipelineDraft} (h : SameGraph d e) (h' : SameGraph e f) : SameGraph d f :=
  ⟨h'.parameters.trans h.parameters, h'.tasks.trans h.tasks, h'.formfactor.trans h.formfactor,
    h'.requirements.trans h.requirements⟩

theorem sameGraph_registerPersona {ε : Type} (d : PipelineDraft) (name : String) (description : Option String) :
    SameGraph d (d.registerPersona name description : Attempt ε PipelineDraft).draft := by
  simp only [registerPersona]
  split
  · exact ⟨rfl, rfl, rfl, rfl⟩
  · split
    · exact .refl d
    · exact ⟨rfl, rfl, rfl, rfl⟩
    · split
      · exact .refl d
      · exact ⟨rfl, rfl, rfl, rfl⟩

theorem sameGraph_greet (d : PipelineDraft) (persona : Option String) : SameGraph d (d.greet persona) := by
  cases persona with
  | none => exact .refl d
  | some name => exact d.sameGraph_registerPersona name none

theorem sameGraph_addKnowledge (d : PipelineDraft) (content : String) : SameGraph d (d.addKnowledge content) := by
  rw [addKnowledge]
  split
  · exact .refl d
  · exact ⟨rfl, rfl, rfl, rfl⟩

theorem sameGraph_foldl {α : Type} {f : PipelineDraft → α → PipelineDraft} (h : ∀ d a, SameGraph d (f d a))
    (l : List α) (d : PipelineDraft) : SameGraph d (l.foldl f d) := by
  induction l generalizing d with
  | nil => exact .refl d
  | cons a l ih => exact (h d a).trans (ih (f d a))

theorem sameGraph_namePersonas (personas : List Persona) (d : PipelineDraft) :
    SameGraph d (d.namePersonas personas) := by
  apply sameGraph_foldl
  exact fun d q => d.sameGraph_registerPersona q.name q.description

end PipelineDraft

def Text.openingLine (s : String) : String := String.ofList (s.toList.takeWhile (· ≠ '\n'))

def Persona.opening (q : Persona) : Persona := { q with description := q.description.map Text.openingLine }

/-- What the first line of a command says. Only the description of a persona goes on after it. -/
def Command.opening : Command → Command
  | .persona name description => .persona name (description.map Text.openingLine)
  | c => c

namespace Pipeline

theorem kind_of_mem_takeFromPipeline {p : Pipeline} {kind : CommandKind} {c : Command} (h : c ∈ kind.takeFromPipeline p) :
    c.kind = kind := by
  cases kind with
  | bookVersion | url | formfactor => exact Command.kind_of_mem_toList h fun _ => rfl
  | parameter | persona | knowledge | model => exact Command.kind_of_mem_map h fun _ => rfl
  | _ => cases h

def headCommands (p : Pipeline) : List Command :=
  (CommandKind.allIn .head).flatMap fun kind => (kind.takeFromPipeline p).filter (!·.isLongKnowledge)

def shortKnowledge (p : Pipeline) : List String :=
  (p.knowledgeSources.map KnowledgeSource.content).filter (!hasLineFeed ·)

def declared (p : Pipeline) : List Parameter := p.parameters.filter Parameter.isDeclared

/-- The commands of a head with these personas and this knowledge in place of its own. -/
def headOf (p : Pipeline) (personas : List Persona) (contents : List String) : List Command :=
  (p.bookVersion.map .bookVersion).toList ++ ((p.url.map .url).toList ++
    (((p.formfactor.filter (· ≠ Formfactor.generic.name)).map .formfactor).toList ++
      ((p.declared.map fun q => .parameter q.declaration) ++
        ((personas.map fun q => .persona q.name q.description) ++ (contents.map .knowledge ++
          ((p.requirements.map Requirements.toList).getD []).map .model)))))

theorem headCommands_eq (p : Pipeline) : p.headCommands = p.headOf p.personas p.shortKnowledge := by
  have hkinds : CommandKind.allIn .head =
      [.bookVersion, .url, .formfactor, .parameter, .persona, .knowledge, .model, .action, .instrument] := by
    decide
  have hkeep {α : Type} (f : α → Command) (l : List α) (h : ∀ a, (f a).isLongKnowledge = false) :
      (l.map f).filter (!·.isLongKnowledge) = l.map f :=
    List.filter_eq_self.mpr fun c hc => by
      obtain ⟨a, -, rfl⟩ := List.mem_map.mp hc
      simp [h a]
  have hoption {α : Type} (f : α → Command) (o : Option α) (h : ∀ a, (f a).isLongKnowledge = false) :
      (o.map f).toList.filter (!·.isLongKnowledge) = (o.map f).toList := by
    rw [Option.toList_map]
    exact hkeep f _ h
  have hknowledge : (p.knowledgeSources.map fun k => Command.knowledge k.content).filter (!·.isLongKnowledge) =
      p.shortKnowledge.map .knowledge := by
    rw [shortKnowledge, List.filter_map, List.filter_map, List.map_map, List.filter_congr]
    · rfl
    · exact fun k _ => rfl
  rw [headCommands, hkinds]
  simp only [List.flatMap_cons, List.flatMap_nil, CommandKind.takeFromPipeline, List.append_nil]
  rw [hoption _ _ fun _ => rfl, hoption _ _ fun _ => rfl, hoption _ _ fun _ => rfl, hkeep _ _ fun _ => rfl,
    hkeep _ _ fun _ => rfl, hknowledge, hkeep _ _ fun _ => rfl, List.filter_nil, List.append_nil, List.append_nil]
  rfl

theorem map_opening_headCommands (p : Pipeline) :
    p.headCommands.map Command.opening = p.headOf (p.personas.map Persona.opening) p.shortKnowledge := by
  have hoption {α : Type} (f : α → Command) (o : Option α) (h : ∀ a, (f a).opening = f a) :
      (o.map f).toList.map Command.opening = (o.map f).toList := by
    cases o with
    | none => rfl
    | some a => exact congrArg (fun c => [c]) (h a)
  have hkeep {α : Type} (f : α → Command) (l : List α) (h : ∀ a, (f a).opening = f a) :
      (l.map f).map Command.opening = l.map f := by
    rw [List.map_map]
    exact List.map_congr_left fun a _ => h a
  have hpersonas : (p.personas.map fun q => Command.persona q.name q.description).map Command.opening =
      (p.personas.map Persona.opening).map fun q => .persona q.name q.description := by
    rw [List.map_map, List.map_map]
    rfl
  rw [headCommands_eq, headOf, headOf]
  simp only [List.map_append, hpersonas]
  rw [hoption _ _ fun _ => rfl, hoption _ _ fun _ => rfl, hoption _ _ fun _ => rfl, hkeep _ _ fun _ => rfl,
    hkeep _ _ fun _ => rfl, hkeep _ _ fun _ => rfl]

def restoreHead (p : Pipeline) (d : PipelineDraft) : PipelineDraft :=
  let e : PipelineDraft :=
    { d with
      bookVersion := p.bookVersion, url := p.url
      formfactor := p.formfactor.filter (· ≠ Formfactor.generic.name)
      parameters := p.declared.map Parameter.sketch }
  { p.shortKnowledge.foldl PipelineDraft.addKnowledge (e.namePersonas (p.personas.map Persona.opening)) with
    requirements := p.requirements.filter (!·.isEmpty) }

theorem each_headOf {p : Pipeline} (hfree : ∀ q ∈ p.parameters, isReserved q.name = false)
    (hnodup : (p.parameters.map Parameter.name).Nodup) (personas : List Persona) (contents : List String) (title : String)
    (description : Option String) (sources : List Source) :
    (each Command.applyToHead (p.headOf personas contents) { title, description, sources }).Yields
      { contents.foldl PipelineDraft.addKnowledge (PipelineDraft.namePersonas personas
          { title, description, sources, bookVersion := p.bookVersion, url := p.url
            formfactor := p.formfactor.filter (· ≠ Formfactor.generic.name)
            parameters := p.declared.map Parameter.sketch }) with
        requirements := p.requirements.filter (!·.isEmpty) } := by
  have hmodel : (each (fun new old => addRequirement "the pipeline head" old new)
      ((p.requirements.map Requirements.toList).getD []) none).Yields (p.requirements.filter (!·.isEmpty)) := by
    cases hr : p.requirements with
    | none => exact yields_each_nil _ _
    | some r =>
        have hyields := r.each_toList "the pipeline head"
        cases he : r.isEmpty <;> simpa [he, Option.filter] using hyields
  refine yields_each_append (PipelineDraft.each_bookVersion p.bookVersion rfl) ?_
  refine yields_each_append (PipelineDraft.each_url p.url rfl) ?_
  refine yields_each_append (PipelineDraft.each_formfactor _ rfl) ?_
  refine yields_each_append (PipelineDraft.each_parameter
    (fun q hq => hfree q (List.mem_of_mem_filter hq)) ?_) ?_
  · exact hnodup.sublist (List.filter_sublist.map Parameter.name)
  refine yields_each_append (PipelineDraft.each_personas _) ?_
  refine yields_each_append (PipelineDraft.each_knowledge _) ?_
  apply PipelineDraft.each_requirements
  rw [(PipelineDraft.sameGraph_foldl PipelineDraft.sameGraph_addKnowledge _ _).requirements,
    (PipelineDraft.sameGraph_namePersonas _ _).requirements]
  exact hmodel

/-- The commands of a head restore it, as far as their first lines go. -/
theorem each_headCommands {p : Pipeline} (hfree : ∀ q ∈ p.parameters, isReserved q.name = false)
    (hnodup : (p.parameters.map Parameter.name).Nodup) (title : String) (description : Option String)
    (sources : List Source) :
    (each Command.applyToHead (p.headCommands.map Command.opening) { title, description, sources }).Yields
      (p.restoreHead { title, description, sources }) := by
  rw [map_opening_headCommands]
  exact each_headOf hfree hnodup (p.personas.map Persona.opening) p.shortKnowledge title description sources

end Pipeline

end BookCompiler
