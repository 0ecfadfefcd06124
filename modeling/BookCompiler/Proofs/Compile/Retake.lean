import BookCompiler.Proofs.Compile.Finish

namespace BookCompiler

open Attempt

namespace CommandKind

/-- What all kinds take, in the order of the kinds, each command together with its kind. -/
def takings (take : CommandKind → List Command) : List (CommandKind × Command) :=
  all.flatMap fun kind => (take kind).map fun c => (kind, c)

theorem map_snd_takings (take : CommandKind → List Command) : (takings take).map Prod.snd = all.flatMap take := by
  rw [takings, List.map_flatMap]
  congr 1
  funext kind
  rw [List.map_map]
  exact List.map_id _

theorem yields_takings {ε α : Type} {take : CommandKind → List Command} {f : Command → α → Attempt ε α}
    {g : CommandKind → Command → α → Attempt ε α} (hg : ∀ kind, ∀ c ∈ take kind, ∀ x, g kind c x = f c x) {x y : α}
    (h : (each f (all.flatMap take) x).Yields y) : (each (fun m => g m.1 m.2) (takings take) x).Yields y := by
  rw [← map_snd_takings] at h
  refine h.each_of_map fun m hm x y hstep => ?_
  obtain ⟨kind, -, hmem⟩ := List.mem_flatMap.mp hm
  obtain ⟨c, hc, rfl⟩ := List.mem_map.mp hmem
  rw [hg kind c hc]
  exact hstep

theorem refusal?_own {kind : CommandKind} {place : Place} {c : Command} (hkind : c.kind = kind)
    (hplace : kind.usableIn place = true) : kind.refusal? place c = none := by
  rw [refusal?, hplace, hkind]
  simp

theorem usableIn_of_mem_takeFromTask {kind : CommandKind} {t : Task} {c : Command} (h : c ∈ kind.takeFromTask t) :
    kind.usableIn .task = true := by
  cases kind with
  | bookVersion | url | formfactor | parameter | knowledge | action | instrument => cases h
  | persona | sectionType | model | expectAmount | expectFormat | joker | postprocess | foreach => rfl

theorem usableIn_of_mem_takeFromPipeline {kind : CommandKind} {p : Pipeline} {c : Command}
    (h : c ∈ kind.takeFromPipeline p) : kind.usableIn .head = true := by
  cases kind with
  | bookVersion | url | formfactor | parameter | persona | knowledge | model => rfl
  | sectionType | expectAmount | expectFormat | joker | postprocess | foreach | action | instrument => cases h

end CommandKind

open CommandKind

theorem Task.Rebuildable.yields_takings {t : Task} (h : t.Rebuildable) (d : PipelineDraft) :
    (each (fun m => m.1.applyToTask m.2) (takings (·.takeFromTask t)) ⟨t.blank, d⟩).Yields
      ⟨t.toDraft, d.greet t.persona⟩ := by
  have hcommands : all.flatMap (·.takeFromTask t) = t.commands := rfl
  apply CommandKind.yields_takings (f := Command.applyToTask)
  · intro kind c hc w
    rw [applyToTask, refusal?_own (Task.kind_of_mem_takeFromTask hc) (usableIn_of_mem_takeFromTask hc)]
  · rw [hcommands]
    exact h.each_commands d

namespace PipelineDraft

variable {d : PipelineDraft}

theorem registerPersona_new {ε : Type} {q : Persona} (h : q.name ∉ d.personaNames) :
    (d.registerPersona q.name q.description : Attempt ε PipelineDraft).draft = { d with personas := d.personas ++ [q] } := by
  have hnone : (d.personas.find? fun r => r.name == q.name) = none := by
    simpa [personaNames] using h
  rw [registerPersona, hnone]
  rfl

theorem namePersonas_new {personas : List Persona} (h : (d.personaNames ++ personas.map Persona.name).Nodup) :
    d.namePersonas personas = { d with personas := d.personas ++ personas } := by
  induction personas generalizing d with
  | nil => rw [List.append_nil]; rfl
  | cons q personas ih =>
      have hnew : q.name ∉ d.personaNames := by
        rw [List.nodup_append] at h
        exact fun hmem => h.2.2 _ hmem _ List.mem_cons_self rfl
      have hrest : (PipelineDraft.personaNames { d with personas := d.personas ++ [q] } ++
          personas.map Persona.name).Nodup := by
        simpa [personaNames] using h
      have hfirst := ih hrest
      rw [← registerPersona_new (ε := ApplyError) hnew] at hfirst
      rw [namePersonas, List.foldl_cons, ← namePersonas, hfirst, registerPersona_new hnew]
      simp

theorem foldl_addKnowledge_new {sources : List KnowledgeSource} (hnamed : ∀ k ∈ sources, k = .ofText k.content)
    (h : ((d.knowledgeSources ++ sources).map KnowledgeSource.content).Nodup) :
    (sources.map KnowledgeSource.content).foldl addKnowledge d =
      { d with knowledgeSources := d.knowledgeSources ++ sources } := by
  induction sources generalizing d with
  | nil => rw [List.append_nil]; rfl
  | cons k sources ih =>
      obtain ⟨hk, hsources⟩ := List.forall_mem_cons.mp hnamed
      have hnew : (d.knowledgeSources.any fun l => l.content == k.content) = false := by
        rw [List.map_append, List.nodup_append] at h
        rw [List.any_eq_false]
        intro l hl
        have hne := h.2.2 _ (List.mem_map_of_mem hl) _ (List.mem_map_of_mem (List.mem_cons_self (a := k) (l := sources)))
        simpa using hne
      have hstep : d.addKnowledge k.content = { d with knowledgeSources := d.knowledgeSources ++ [k] } := by
        rw [addKnowledge, hnew, ← hk]
        rfl
      rw [List.append_cons] at h
      rw [List.map_cons, List.foldl_cons, hstep, ih hsources h, ← List.append_cons]

end PipelineDraft

namespace Pipeline

theorem takings_commands (p : Pipeline) : all.flatMap (·.takeFromPipeline p) =
    p.headOf p.personas (p.knowledgeSources.map KnowledgeSource.content) := by
  rw [headOf, List.map_map]
  simp only [all, List.flatMap_cons, List.flatMap_nil, takeFromPipeline, List.append_nil]
  rfl

/-- A pipeline whose head says nothing twice and nothing empty. -/
structure HeadRebuildable (p : Pipeline) : Prop where
  parameters : (p.parameters.map Parameter.name).Nodup
  parameters_free : ∀ q ∈ p.parameters, isReserved q.name = false
  personas : (p.personas.map Persona.name).Nodup
  knowledge : (p.knowledgeSources.map KnowledgeSource.content).Nodup
  knowledge_named : ∀ k ∈ p.knowledgeSources, k = .ofText k.content
  requirements : ∀ r ∈ p.requirements, r.isEmpty = false

theorem HeadRebuildable.yields_takings {p : Pipeline} (h : p.HeadRebuildable) (title : String) :
    (each (fun m => m.1.applyToHead m.2) (takings (·.takeFromPipeline p)) { title }).Yields
      { title
        url := p.url
        bookVersion := p.bookVersion
        formfactor := p.formfactor.filter (· ≠ Formfactor.generic.name)
        requirements := p.requirements
        personas := p.personas
        knowledgeSources := p.knowledgeSources
        parameters := p.declared.map Parameter.sketch } := by
  have hrequirements : p.requirements.filter (!·.isEmpty) = p.requirements := by
    cases hr : p.requirements with
    | none => rfl
    | some r => simp [h.requirements r hr]
  apply CommandKind.yields_takings (f := Command.applyToHead)
  · intro kind c hc d
    rw [applyToHead, refusal?_own (kind_of_mem_takeFromPipeline hc) (usableIn_of_mem_takeFromPipeline hc)]
  · have hhead := each_headOf h.parameters_free h.parameters p.personas
      (p.knowledgeSources.map KnowledgeSource.content) title none []
    rw [PipelineDraft.namePersonas_new (by simpa [PipelineDraft.personaNames] using h.personas),
      PipelineDraft.foldl_addKnowledge_new h.knowledge_named (by simpa using h.knowledge), hrequirements] at hhead
    rw [takings_commands]
    exact hhead

end Pipeline

theorem KnowledgeSource.Made.eq_ofText {k : KnowledgeSource} (h : k.Made) : k = .ofText k.content := by
  rw [ofText, ← h.name]

theorem PipelineDraft.Made.headRebuildable {d : PipelineDraft} (hd : d.Made) {options : Options}
    (hclosed : (d.finish options).Closed options.limits) : (d.finish options).HeadRebuildable := by
  have hhead := d.sameHead_finish options
  constructor
  · exact hclosed.parameters_distinct
  · exact hclosed.parameters_free
  · rw [hhead.personas]
    exact hd.personas_distinct
  · rw [hhead.knowledgeSources]
    exact hd.knowledge_distinct
  · rw [hhead.knowledgeSources]
    exact fun k hk => (hd.knowledge k hk).eq_ofText
  · rw [hhead.requirements]
    exact fun r hr => (hd.requirements r hr).nonempty

/-- The commands that are taken from a compiled pipeline give back, applied to empty drafts, every task up to its
dependencies and all that its head can say. -/
theorem compile_retaken (options : Options) (source : String) (p : Pipeline)
    (h : (compile options source).result = .ok p) :
    (∀ t ∈ p.tasks, ∀ d : PipelineDraft, ∃ w : Workpiece,
      (each (fun m => m.1.applyToTask m.2) (takings (·.takeFromTask t)) ⟨t.blank, d⟩).Yields w ∧
        w.task.build = some { t with dependencies := [] }) ∧
      ∀ title, (each (fun m => m.1.applyToHead m.2) (takings (·.takeFromPipeline p)) { title }).Yields
        { title
          url := p.url
          bookVersion := p.bookVersion
          formfactor := p.formfactor.filter (· ≠ "GENERIC")
          requirements := p.requirements
          personas := p.personas
          knowledgeSources := p.knowledgeSources
          parameters :=
            (p.parameters.filter fun q => q.role ≠ .intermediate || q.description.isSome).map Parameter.sketch } := by
  obtain ⟨book, hread, hok, rfl, -⟩ := compile_ok h
  have hmade := Book.assemble_made hread hok
  have hclosed := (Book.assemble_closed hok).finish options
  refine ⟨fun t ht d => ?_, fun title => (hmade.headRebuildable hclosed).yields_takings title⟩
  obtain ⟨htask, -⟩ := hmade.finish_tasks options t ht
  refine ⟨_, htask.rebuildable.yields_takings d, ?_⟩
  rw [htask.rebuildable.build_toDraft, ← htask.prepared]

def boundsBook : String :=
  "# T\n- PERSONA P, poet\n- MODEL SEED 7\n## A\n- EXPECT MIN 1 WORD\n- EXPECT MAX 9 WORDS\n- EXPECT EXACTLY 1 LINE\n" ++
    "> \x7ba\x7d\n-> \x7bb\x7d"

theorem compile_retaken_boundsBook : ∃ p t, (compile {} boundsBook).result = .ok p ∧ t ∈ p.tasks ∧
    (∃ w : Workpiece,
      (each (fun m => m.1.applyToTask m.2) (takings (·.takeFromTask t)) ⟨t.blank, { title := "T" }⟩).Yields w ∧
        w.task.build = some { t with dependencies := [] }) ∧
    ∃ e, (each (fun m => m.1.applyToHead m.2) (takings (·.takeFromPipeline p)) { title := "T" }).Yields e ∧
      e.personas = p.personas := by
  have htasks : (compile {} boundsBook).result.toOption.map (fun p => p.tasks.length) = some 1 := by decide +kernel
  obtain ⟨p, hp, hlength⟩ := Option.map_eq_some_iff.mp htasks
  obtain ⟨t, ht⟩ := List.length_eq_one_iff.mp hlength
  obtain ⟨htask, hhead⟩ := compile_retaken {} boundsBook p (eq_ok_of_toOption hp)
  have hmem : t ∈ p.tasks := by
    rw [ht]
    exact List.mem_singleton_self t
  exact ⟨p, t, eq_ok_of_toOption hp, hmem, htask t hmem { title := "T" }, _, hhead "T", rfl⟩

end BookCompiler
