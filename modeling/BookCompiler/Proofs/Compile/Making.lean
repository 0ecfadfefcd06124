import BookCompiler.Proofs.Compile.Made
import BookCompiler.Proofs.Draft.Slots

namespace BookCompiler

open Text

def IsNote (text : String) : Prop := IsPhrase text.toList ∧ '\x7b' ∉ text.toList ∧ '\x7d' ∉ text.toList

instance (text : String) : Decidable (IsNote text) := by
  unfold IsNote
  infer_instance

structure ParameterDraft.Made (q : ParameterDraft) : Prop where
  description : ∀ text ∈ q.description, IsNote text
  role : q.role ≠ some .intermediate
  examples : ∀ value ∈ q.examples, IsPassage value

structure Persona.Made (q : Persona) : Prop where
  name : Persona.WellNamed q.name
  description : ∀ text ∈ q.description, Trimmed text.toList ∧ IsPhrase (openingLine text).toList

structure Requirements.Made (r : Requirements) : Prop where
  wellFormed : ∀ x ∈ r.toList, x.WellFormed
  nonempty : r.isEmpty = false

structure KnowledgeSource.Made (k : KnowledgeSource) : Prop where
  trimmed : Trimmed k.content.toList
  name : k.name = KnowledgeSource.nameOf k.content

def PipelineDraft.personaNames (d : PipelineDraft) : List String := d.personas.map Persona.name

/-- What a draft of a pipeline is like at any time. -/
structure PipelineDraft.Made (d : PipelineDraft) : Prop where
  title : IsTitle d.title
  description : ∀ text ∈ d.description, IsPassage text
  bookVersion : ∀ version ∈ d.bookVersion, (Command.bookVersion version).WellFormed
  url : ∀ url ∈ d.url, (Command.url url).WellFormed
  formfactor : ∀ name ∈ d.formfactor, (Command.formfactor name).WellFormed
  requirements : ∀ r ∈ d.requirements, r.Made
  parameters : ∀ q ∈ d.parameters, q.Made
  personas : ∀ q ∈ d.personas, q.Made
  personas_distinct : d.personaNames.Nodup
  knowledge : ∀ k ∈ d.knowledgeSources, k.Made
  knowledge_distinct : (d.knowledgeSources.map KnowledgeSource.content).Nodup
  tasks : ∀ t ∈ d.tasks, t.Made
  tasks_persona : ∀ t ∈ d.tasks, ∀ name ∈ t.persona, name ∈ d.personaNames

theorem KnowledgeSource.made_ofText {content : String} (h : Trimmed content.toList) : (ofText content).Made :=
  ⟨h, by rw [ofText]⟩

namespace ParameterDraft

variable {q r : ParameterDraft}

theorem Made.merge (hq : q.Made) (hr : r.Made) : (q.merge r).draft.Made := by
  rw [ParameterDraft.merge]
  split
  · exact hq
  · rename_i description hdescription
    have hmerged : ∀ text ∈ description, IsNote text := by
      intro text htext
      rcases ((agree_eq_some_iff _ _ _).mp (agree_of_mergeDescription hdescription) text).mp htext with h | h
      · exact hq.description text h
      · exact hr.description text h
    split
    · exact ⟨hmerged, hq.role, hq.examples⟩
    · rename_i role hrole
      refine ⟨hmerged, ?_, fun value hvalue => ?_⟩
      · rw [mergeRole_eq_agree, agree_eq_some_iff] at hrole
        intro hsome
        rcases (hrole _).mp hsome with h | h
        · exact hq.role h
        · exact hr.role h
      · rcases List.mem_append.mp hvalue with hvalue | hvalue
        · exact hq.examples value hvalue
        · exact hr.examples value hvalue

end ParameterDraft

namespace PipelineDraft

variable {d : PipelineDraft}

theorem Made.setParameter (hd : d.Made) {q : ParameterDraft} (hq : q.Made) : (d.setParameter q).Made :=
  { hd with
    parameters := fun r hr => by
      rcases mem_replaceFirst hr with rfl | hr
      · exact hq
      · exact hd.parameters r hr }

theorem Made.defineParameter (hd : d.Made) {q : ParameterDraft} (hq : q.Made) : (d.defineParameter q).draft.Made := by
  rw [PipelineDraft.defineParameter]
  split
  · exact hd
  · split
    · refine { hd with parameters := fun r hr => ?_ }
      rcases List.mem_append.mp hr with hr | hr
      · exact hd.parameters r hr
      · rw [List.mem_singleton.mp hr]
        exact hq
    · rename_i existing hexisting
      exact hd.setParameter ((hd.parameters existing (parameter?_eq_some hexisting).1).merge hq)

theorem Made.declare (hd : d.Made) {c : Declaration} (hc : c.WellFormed) : (d.declare c).draft.Made := by
  rw [PipelineDraft.declare]
  split
  · exact hd
  · rename_i role hrole
    apply hd.defineParameter
    refine ⟨hc.description, ?_, by simp⟩
    rw [Declaration.role] at hrole
    split at hrole <;> cases hrole <;> simp

theorem Made.addKnowledge (hd : d.Made) {content : String} (h : Trimmed content.toList) : (d.addKnowledge content).Made := by
  rw [PipelineDraft.addKnowledge]
  split
  · exact hd
  · rename_i hnew
    refine { hd with knowledge := fun k hk => ?_, knowledge_distinct := ?_ }
    · rcases List.mem_append.mp hk with hk | hk
      · exact hd.knowledge k hk
      · rw [List.mem_singleton.mp hk]
        exact KnowledgeSource.made_ofText h
    · rw [List.map_append, List.nodup_append]
      refine ⟨hd.knowledge_distinct, by simp, ?_⟩
      intro a ha b hb hab
      obtain ⟨k, hk, rfl⟩ := List.mem_map.mp ha
      have hsame : k.content = content := by rw [hab, List.mem_singleton.mp hb, KnowledgeSource.ofText]
      exact hnew (List.any_eq_true.mpr ⟨k, hk, beq_iff_eq.mpr hsame⟩)

end PipelineDraft

section Requirements

variable {r : Requirements} {new : Requirement}

theorem Requirements.mem_toList_set {x : Requirement} (h : x ∈ (r.set new).toList) : x = new ∨ x ∈ r.toList := by
  cases new <;> grind [set, toList]

theorem Requirements.isEmpty_set (r : Requirements) (new : Requirement) : (r.set new).isEmpty = false := by
  cases new <;> simp [set, isEmpty]

theorem Requirements.set_made {r : Requirements} (h : ∀ x ∈ r.toList, x.WellFormed) (hnew : new.WellFormed) :
    (r.set new).Made := by
  refine ⟨fun x hx => ?_, r.isEmpty_set new⟩
  rcases mem_toList_set hx with rfl | hx
  · exact hnew
  · exact h x hx

theorem addRequirement_made (scope : String) {old : Option Requirements} (hold : ∀ r ∈ old, r.Made)
    (hnew : new.WellFormed) : ∀ r ∈ (addRequirement scope old new).draft, r.Made := by
  cases old with
  | none =>
      rw [addRequirement_none]
      rintro r ⟨⟩
      exact Requirements.set_made (List.forall_mem_nil _) hnew
  | some r =>
      simp only [addRequirement, Option.getD_some]
      split
      · rintro s ⟨⟩
        exact Requirements.set_made (hold r rfl).wellFormed hnew
      · split <;> exact hold

end Requirements

theorem openingLine_append (a b : String) : openingLine (a ++ "\n\n" ++ b) = openingLine a := by
  have htakeWhile (s t : List Char) : (s ++ '\n' :: t).takeWhile (· ≠ '\n') = s.takeWhile (· ≠ '\n') := by
    induction s with
    | nil => simp
    | cons c s ih =>
        by_cases hc : c = '\n'
        · simp [hc]
        · simpa [hc] using ih
  rw [openingLine, openingLine, String.toList_append, String.toList_append, List.append_assoc]
  exact congrArg String.ofList (htakeWhile a.toList _)

theorem Persona.Made.describe {q : Persona} (h : q.Made) {current new : String} (hcurrent : q.description = some current)
    (hnew : IsPhrase new.toList) : (Persona.mk q.name (some (current ++ "\n\n" ++ new))).Made := by
  obtain ⟨htrimmed, hphrase⟩ := h.description current hcurrent
  have hne : current.toList ≠ [] := by
    intro hnil
    rw [openingLine, hnil] at hphrase
    exact hphrase.ne_nil rfl
  refine ⟨h.name, fun text htext => ?_⟩
  cases htext
  rw [openingLine_append, String.toList_append, String.toList_append]
  exact ⟨htrimmed.append "\n\n".toList hnew.trimmed hne hnew.ne_nil, hphrase⟩

namespace PipelineDraft

variable {d : PipelineDraft} {ε : Type}

theorem personaNames_setPersona (d : PipelineDraft) (q : Persona) : (d.setPersona q).personaNames = d.personaNames :=
  map_replaceFirst _ _ Persona.name (fun r hr => by simpa using hr) d.personas

theorem personaNames_registerPersona (d : PipelineDraft) (name : String) (description : Option String) :
    (d.registerPersona name description : Attempt ε PipelineDraft).draft.personaNames =
      if name ∈ d.personaNames then d.personaNames else d.personaNames ++ [name] := by
  rw [registerPersona]
  cases hfind : d.personas.find? fun q => q.name == name with
  | none =>
      have hnew : name ∉ d.personaNames := by
        simpa [personaNames] using hfind
      rw [if_neg hnew]
      simp [Attempt.done, personaNames]
  | some q =>
      have hmem : name ∈ d.personaNames := by
        have hname : q.name = name := by simpa using List.find?_some hfind
        exact hname ▸ List.mem_map_of_mem (List.mem_of_find?_eq_some hfind)
      rw [if_pos hmem]
      dsimp only
      split
      · rfl
      · exact d.personaNames_setPersona _
      · split
        · rfl
        · exact d.personaNames_setPersona _

theorem mem_personaNames_registerPersona (d : PipelineDraft) (name : String) (description : Option String) {other : String}
    (h : other = name ∨ other ∈ d.personaNames) :
    other ∈ (d.registerPersona name description : Attempt ε PipelineDraft).draft.personaNames := by
  rw [personaNames_registerPersona]
  split
  · rename_i hmem
    rcases h with rfl | h
    · exact hmem
    · exact h
  · rw [List.mem_append, List.mem_singleton]
    exact h.symm

theorem nodup_personaNames_registerPersona (h : d.personaNames.Nodup) (name : String) (description : Option String) :
    (d.registerPersona name description : Attempt ε PipelineDraft).draft.personaNames.Nodup := by
  rw [personaNames_registerPersona]
  split
  · exact h
  · rename_i hnew
    exact List.nodup_append.mpr ⟨h, by simp, by
      intro a ha b hb hab
      rw [List.mem_singleton.mp hb] at hab
      exact hnew (hab ▸ ha)⟩

theorem Made.setPersona (hd : d.Made) {q : Persona} (hq : q.Made) : (d.setPersona q).Made := by
  have hnames := d.personaNames_setPersona q
  refine { hd with personas := fun r hr => ?_, personas_distinct := ?_, tasks_persona := ?_ }
  · rcases mem_replaceFirst hr with rfl | hr
    · exact hq
    · exact hd.personas r hr
  · rw [hnames]
    exact hd.personas_distinct
  · rw [hnames]
    exact hd.tasks_persona

theorem Made.registerPersona (hd : d.Made) {name : String} {description : Option String}
    (h : (Command.persona name description).WellFormed) :
    (d.registerPersona name description : Attempt ε PipelineDraft).draft.Made := by
  obtain ⟨hname, hdescription⟩ := h
  have hmade : (Persona.mk name description).Made := by
    refine ⟨hname, fun text htext => ?_⟩
    have hphrase := hdescription text htext
    rw [openingLine_of_noFeed hphrase.noFeed]
    exact ⟨hphrase.trimmed, hphrase⟩
  have hdistinct := nodup_personaNames_registerPersona (ε := ε) hd.personas_distinct name description
  have hkept : ∀ other ∈ d.personaNames,
      other ∈ (d.registerPersona name description : Attempt ε PipelineDraft).draft.personaNames :=
    fun other h => d.mem_personaNames_registerPersona name description (Or.inr h)
  rw [PipelineDraft.registerPersona] at hdistinct hkept ⊢
  split
  · rename_i hnone
    rw [hnone] at hdistinct hkept
    refine { hd with personas := fun q hq => ?_, personas_distinct := hdistinct, tasks_persona := ?_ }
    · rcases List.mem_append.mp hq with hq | hq
      · exact hd.personas q hq
      · rw [List.mem_singleton.mp hq]
        exact hmade
    · exact fun t ht other hother => hkept other (hd.tasks_persona t ht other hother)
  · rename_i q hq
    have hq' := hd.personas q (List.mem_of_find?_eq_some hq)
    have hqname : q.name = name := by simpa using List.find?_some hq
    split
    · exact hd
    · exact hd.setPersona hmade
    · rename_i new current hcurrent
      split
      · exact hd
      · exact hd.setPersona (hqname ▸ hq'.describe hcurrent (hdescription new rfl))

theorem Made.applyToHead (hd : d.Made) {c : Command} (hc : c.WellFormed) : (c.applyToHead d).draft.Made := by
  cases c with
  | bookVersion version =>
      refine Attempt.ofResult_keeps hd fun v hv => { hd with bookVersion := fun w hw => ?_ }
      rw [settle_ok hv] at hw
      cases hw
      exact hc
  | url address =>
      refine Attempt.ofResult_keeps hd fun u hu => { hd with url := fun w hw => ?_ }
      rw [settle_ok hu] at hw
      cases hw
      exact hc
  | formfactor name =>
      refine Attempt.ofResult_keeps hd fun f hf => { hd with formfactor := fun w hw => ?_ }
      rw [settle_ok hf] at hw
      cases hw
      exact hc
  | parameter declaration => exact hd.declare hc
  | persona name description => exact hd.registerPersona hc
  | knowledge content => exact hd.addKnowledge hc.1.trimmed
  | model requirement =>
      exact { hd with requirements := addRequirement_made _ hd.requirements hc }
  | action | instrument | sectionType | expectAmount | expectFormat | joker | postprocess | foreach => exact hd

theorem personaNames_defineParameter (d : PipelineDraft) (q : ParameterDraft) :
    (d.defineParameter q).draft.personaNames = d.personaNames := by
  rw [defineParameter]
  split
  · rfl
  · split <;> rfl

theorem personaNames_declare (d : PipelineDraft) (c : Declaration) : (d.declare c).draft.personaNames = d.personaNames := by
  rw [PipelineDraft.declare]
  split
  · rfl
  · exact d.personaNames_defineParameter _

theorem personaNames_addKnowledge (d : PipelineDraft) (content : String) :
    (d.addKnowledge content).personaNames = d.personaNames := by
  rw [PipelineDraft.addKnowledge]
  split <;> rfl

end PipelineDraft

structure TaskType.MetBy (type : TaskType) (content : String) (result : Option String) : Prop where
  content : type ≠ .dialog → (trim content.toList).isEmpty = false
  result : type = .script → result.isSome = true

/-- What the draft of a section is like at any time. -/
structure TaskDraft.Made (d : TaskDraft) : Prop where
  title : IsTitle d.title
  name : d.name = Name.ofTitle d.title
  description : ∀ text ∈ d.description, IsPassage text
  content : Trimmed d.content.toList
  result : ∀ name ∈ d.result, Name.Valid name
  type : ∀ type, d.sectionType.bind SectionType.taskType = some type → type.MetBy d.content d.result
  persona : ∀ name ∈ d.persona, Persona.WellNamed name
  requirements : ∀ r ∈ d.requirements, r.Made
  expectations : ∀ unit b, d.expectations.get unit = some b → b.Sound
  jokers : ∀ name ∈ d.jokers, Name.Valid name
  jokers_distinct : d.jokers.Nodup
  postprocessing : ∀ function ∈ d.postprocessing, Name.isIdentifier function = true
  foreach : ∀ loop ∈ d.foreach, loop.WellFormed

structure Workpiece.Made (w : Workpiece) : Prop where
  task : w.task.Made
  pipeline : w.pipeline.Made
  persona : ∀ name ∈ w.task.persona, name ∈ w.pipeline.personaNames

theorem Bounds.add_bounded {b c : Bounds} {what : String → String} {sign : ExpectSign} {amount : UInt32}
    (h : b.add what sign amount = .ok c) : c.min.isSome = true ∨ c.max.isSome = true := by
  cases sign with
  | exactly | minimum =>
      simp only [add, reduceCtorEq, if_false, if_true] at h
      obtain ⟨min, hmin, h⟩ := bind_ok h
      obtain ⟨max, -, h⟩ := bind_ok h
      cases h
      exact Or.inl (by rw [settle_ok hmin]; rfl)
  | maximum =>
      simp only [add, reduceCtorEq, if_false, if_true] at h
      obtain ⟨min, -, h⟩ := bind_ok h
      obtain ⟨max, hmax, h⟩ := bind_ok h
      cases h
      exact Or.inr (by rw [settle_ok hmax]; rfl)

theorem TaskDraft.Made.expect {d : TaskDraft} (hd : d.Made) {sign : ExpectSign} {unit : ExpectUnit} {amount : UInt32}
    {e : Expectations} (h : d.expect sign unit amount = .ok e) : ∀ other b, e.get other = some b → b.Sound := by
  exact expect_keeps h hd.expectations fun _ _ _ hadd hcrossed => ⟨Bounds.add_bounded hadd, hcrossed⟩

theorem TaskDraft.addForeach_ok {d : TaskDraft} {loop : Foreach} {f : Option Foreach} (h : d.addForeach loop = .ok f) :
    f = some loop := by
  rw [addForeach] at h
  split at h
  · cases h
    rfl
  · split at h
    · cases h
      rfl
    · cases h

namespace Workpiece

variable {w : Workpiece}

theorem Made.withTask (hw : w.Made) {t : TaskDraft} (ht : t.Made) (hpersona : t.persona = w.task.persona) :
    (w.withTask t).Made := ⟨ht, hw.pipeline, fun name hname => hw.persona name (hpersona ▸ hname)⟩

theorem Made.withPipeline (hw : w.Made) {d : PipelineDraft} (hd : d.Made) (hnames : d.personaNames = w.pipeline.personaNames) :
    (w.withPipeline d).Made := ⟨hw.task, hd, fun name hname => hnames ▸ hw.persona name hname⟩

variable {type : SectionType} {a : Attempt ApplyError Workpiece}

theorem Made.enacts (hw : w.Made) (h : w.Enacts type a) : a.draft.Made := by
  cases h with
  | refuse | take => exact hw
  | sample name q hcontent _ hq =>
      have hmade := hw.pipeline.parameters q (PipelineDraft.parameter?_eq_some hq).1
      have hpassage : IsPassage w.task.content := by
        refine ⟨hw.task.content, fun hnil => ?_⟩
        rw [TaskDraft.isBlank, hnil] at hcontent
        cases hcontent
      refine hw.withPipeline (hw.pipeline.setParameter ⟨hmade.description, hmade.role, fun value hvalue => ?_⟩) rfl
      rcases List.mem_append.mp hvalue with hvalue | hvalue
      · exact hmade.examples value hvalue
      · rw [List.mem_singleton.mp hvalue]
        exact hpassage
  | knowledge =>
      exact hw.withPipeline (hw.pipeline.addKnowledge hw.task.content)
        (w.pipeline.personaNames_addKnowledge w.task.content)

theorem Enacts.metBy (h : w.Enacts type a) (hok : a.refusal = none) (t : TaskType) (ht : type.taskType = some t) :
    t.MetBy w.task.content w.task.result := by
  cases h with
  | refuse => cases hok
  | take type _ _ _ hcontent hresult =>
      refine ⟨hcontent t ht, fun hscript => hresult ?_⟩
      rw [ht, hscript]
  | sample | knowledge => cases ht

theorem Made.setType (hw : w.Made) {type : SectionType} (hok : (w.setType type).refusal = none) :
    (w.setType type).draft.Made := by
  rw [Workpiece.setType] at hok ⊢
  split at hok
  · cases hok
  · rename_i hnone
    have henacts := Workpiece.enacts (w.withTask { w.task with sectionType := some type }) type
    have htask : TaskDraft.Made { w.task with sectionType := some type } := { hw.task with type := henacts.metBy hok }
    exact (hw.withTask htask rfl).enacts henacts

theorem Made.setPersona (hw : w.Made) {name : String} {description : Option String}
    (h : (Command.persona name description).WellFormed) : (w.setPersona name description).draft.Made := by
  rw [Workpiece.setPersona]
  split
  · exact hw
  · rename_i persona hpersona
    rw [settle_ok hpersona]
    refine ⟨{ hw.task with persona := fun other hother => ?_ }, hw.pipeline.registerPersona h, fun other hother => ?_⟩
    · cases hother
      exact h.1
    · cases hother
      exact w.pipeline.mem_personaNames_registerPersona name description (Or.inl rfl)

theorem Made.applyToTask (hw : w.Made) {c : Command} (hc : c.WellFormed) (hok : (c.applyToTask w).refusal = none) :
    (c.applyToTask w).draft.Made := by
  cases c with
  | parameter declaration =>
      exact hw.withPipeline (hw.pipeline.declare hc) (w.pipeline.personaNames_declare declaration)
  | persona name description => exact hw.setPersona hc
  | sectionType type => exact hw.setType hok
  | model requirement =>
      exact hw.withTask { hw.task with requirements := addRequirement_made _ hw.task.requirements hc } rfl
  | expectAmount sign unit amount =>
      exact Workpiece.expect_keeps hw fun e he => hw.withTask { hw.task with expectations := hw.task.expect he } rfl
  | expectFormat format =>
      exact Attempt.ofResult_keeps hw fun f _ => hw.withTask { hw.task with } rfl
  | joker name =>
      simp only [Command.applyToTask, Attempt.done]
      split
      · exact hw
      · rename_i hnew
        have hdistinct : (w.task.jokers ++ [name]).Nodup :=
          List.nodup_append.mpr ⟨hw.task.jokers_distinct, by simp, by
            intro a ha b hb hab
            rw [List.mem_singleton.mp hb] at hab
            exact hnew (by simpa [hab] using ha)⟩
        refine hw.withTask { hw.task with jokers := fun n hn => ?_, jokers_distinct := hdistinct } rfl
        rcases List.mem_append.mp hn with hn | hn
        · exact hw.task.jokers n hn
        · rw [List.mem_singleton.mp hn]
          exact hc
  | postprocess function =>
      refine hw.withTask { hw.task with postprocessing := fun f hf => ?_ } rfl
      rcases List.mem_append.mp hf with hf | hf
      · exact hw.task.postprocessing f hf
      · rw [List.mem_singleton.mp hf]
        exact hc
  | foreach loop =>
      refine Attempt.ofResult_keeps hw fun f hf => hw.withTask { hw.task with foreach := fun g hg => ?_ } rfl
      rw [TaskDraft.addForeach_ok hf] at hg
      cases hg
      exact hc
  | bookVersion | url | knowledge | formfactor | action | instrument => exact hw

end Workpiece

theorem Task.commands_wellFormed {t : Task} (hpersona : ∀ name ∈ t.persona, Persona.WellNamed name)
    (hrequirements : ∀ r ∈ t.requirements, r.Made) (hjokers : ∀ name ∈ t.jokers, Name.Valid name)
    (hpostprocessing : ∀ function ∈ t.postprocessing, Name.isIdentifier function = true)
    (hforeach : ∀ loop ∈ t.foreach, loop.WellFormed) : ∀ c ∈ t.commands, c.WellFormed := by
  intro c hc
  rw [Task.commands_eq] at hc
  simp only [List.mem_append, Option.mem_toList, Option.map_eq_some_iff, List.mem_map, List.mem_flatMap,
    List.mem_singleton] at hc
  rcases hc with ⟨name, hname, rfl⟩ | rfl | ⟨r, hr, rfl⟩ | ⟨x, -, hx⟩ | ⟨format, -, rfl⟩ | ⟨name, hname, rfl⟩ |
    ⟨function, hfunction, rfl⟩ | ⟨loop, hloop, rfl⟩
  · exact ⟨hpersona name hname, fun text htext => by cases htext⟩
  · trivial
  · cases hs : t.requirements with
    | none =>
        rw [hs] at hr
        cases hr
    | some rs =>
        rw [hs] at hr
        exact (hrequirements rs hs).wellFormed r hr
  · obtain ⟨sign, amount, rfl⟩ : ∃ sign amount, c = .expectAmount sign x.1 amount := by
      rw [Bounds.commands] at hx
      split at hx
      · obtain ⟨m, -, rfl⟩ := Option.map_eq_some_iff.mp (Option.mem_toList.mp hx)
        exact ⟨_, m, rfl⟩
      · rcases List.mem_append.mp hx with hx | hx
        · obtain ⟨m, -, rfl⟩ := Option.map_eq_some_iff.mp (Option.mem_toList.mp hx)
          exact ⟨_, m, rfl⟩
        · obtain ⟨m, -, rfl⟩ := Option.map_eq_some_iff.mp (Option.mem_toList.mp hx)
          exact ⟨_, m, rfl⟩
    trivial
  · trivial
  · exact hjokers name hname
  · exact hpostprocessing function hfunction
  · exact hforeach loop hloop

namespace BookSection

variable {s : BookSection} {limits : Script.Limits}

theorem settleLanguage_language {state : String} {t u : Task} (h : s.settleLanguage state t = .ok u) :
    (u.type = .script ∧ ∃ l : Script.Language, u.language = some l.name) ∨ u.type ≠ .script ∧ u.language = none := by
  rw [settleLanguage] at h
  split at h
  · rename_i htype
    cases h
    exact Or.inr ⟨htype, rfl⟩
  · rename_i htype
    split at h
    · cases h
    · rename_i l hl
      cases h
      exact Or.inl ⟨not_not.mp htype, l, rfl⟩

theorem openDraft_made (hs : s.Made) {task : TaskDraft} (h : s.openDraft = .ok task) : task.Made := by
  obtain ⟨heq, hresult⟩ := openDraft_ok h
  have hvalid : ∀ name ∈ task.result, Name.Valid name := by
    intro name hname
    obtain ⟨raw, -, hraw⟩ := hresult name hname
    exact Name.valid_of_readReference hraw
  have hexpectations : ∀ unit b, Expectations.get {} unit = some b → b.Sound := by
    intro unit b hb
    cases unit <;> cases hb
  rw [heq]
  exact ⟨hs.title, hs.name, hs.description, hs.content, hvalid, by simp [draft], by simp [draft], by simp [draft],
    hexpectations, by simp [draft], by simp [draft], by simp [draft], by simp [draft]⟩

theorem finishTask_made {w : Workpiece} (hw : w.task.Made) {t u : Task} (hbuild : w.task.build = some t)
    (h : s.finishTask limits w.task.snapshot w.pipeline t = .ok u) : u.Made ∧ u.persona = w.task.persona := by
  obtain ⟨-, v, hv, -, hset⟩ := finishTask_ok h
  have hlanguage := settleLanguage_language hv
  obtain ⟨language, rfl⟩ := settleLanguage_ok hv
  obtain ⟨type, htype, rfl⟩ := TaskDraft.build_eq_some hbuild
  have hmet := hw.type type htype
  have hrequirements : ∀ r ∈ w.task.requirements.filter (!·.isEmpty), r.Made := by
    intro r hr
    exact hw.requirements r (Option.filter_eq_some_iff.mp hr).1
  rw [hset]
  refine ⟨⟨hw.title, hw.name, hw.description, hw.content, hlanguage, hw.result, rfl, ?_, ?_⟩, rfl⟩
  · exact Task.commands_wellFormed hw.persona hrequirements hw.jokers hw.postprocessing hw.foreach
  · exact ⟨hmet.content, hmet.result, hw.jokers_distinct, hw.expectations, fun r hr => (hrequirements r hr).nonempty⟩

theorem addTask_made {w : Workpiece} (hw : w.Made) (hok : (s.addTask limits w).refusal = none) :
    (s.addTask limits w).draft.Made := by
  obtain ⟨-, hdraft⟩ | ⟨t, u, hbuild, hu, e, rfl, hrun, hdraft⟩ := addTask_accepted hok
  · rw [hdraft]
    exact hw.pipeline
  · obtain ⟨hmade, hpersona⟩ := finishTask_made hw.task hbuild hu
    have hkept := Attempt.each_keeps (I := fun d => d.Made ∧ d.personaNames = w.pipeline.personaNames)
      (fun name _ d hd _ => ⟨hd.1.defineParameter (q := { name }) ⟨by simp, by simp, by simp⟩,
        (d.personaNames_defineParameter { name }).trans hd.2⟩) ⟨hw.pipeline, rfl⟩ hrun
    rw [hdraft]
    refine { hkept.1 with tasks := fun x hx => ?_, tasks_persona := fun x hx name hname => ?_ }
    · rcases List.mem_append.mp hx with hx | hx
      · exact hkept.1.tasks x hx
      · rw [List.mem_singleton.mp hx]
        exact hmade
    · rcases List.mem_append.mp hx with hx | hx
      · exact hkept.1.tasks_persona x hx name hname
      · rw [List.mem_singleton.mp hx, hpersona] at hname
        exact hkept.2 ▸ hw.persona name hname

theorem apply_made (hs : s.Made) {d : PipelineDraft} (hd : d.Made) (hok : (s.apply limits d).refusal = none) :
    (s.apply limits d).draft.Made := by
  obtain ⟨w, hw, hadd, hdraft⟩ := apply_accepted (J := Workpiece.Made)
    (fun task htask => ⟨openDraft_made hs htask, hd, by rw [(openDraft_ok htask).1]; simp [draft]⟩)
    (fun c hc w hw hok => hw.applyToTask (by
      rcases hc with rfl | ⟨line, -, hread⟩
      · trivial
      · exact Registry.read_wellFormed hread) hok) hok
  rw [hdraft]
  exact addTask_made hw hadd

end BookSection

/-- All that is assembled from a book that has been read is well made. -/
theorem Book.assemble_made {source : String} {book : Book} {limits : Script.Limits} (hread : Book.read source = .ok book)
    (hok : (book.assemble limits).refusal = none) : (book.assemble limits).draft.Made := by
  obtain ⟨htitle, hdescription, hsections⟩ := Book.read_made hread
  have hbase : (PipelineDraft.ofBook book).Made :=
    ⟨htitle, hdescription, by simp [PipelineDraft.ofBook], by simp [PipelineDraft.ofBook], by simp [PipelineDraft.ofBook],
      by simp [PipelineDraft.ofBook], by simp [PipelineDraft.ofBook], by simp [PipelineDraft.ofBook], List.nodup_nil,
      by simp [PipelineDraft.ofBook], List.nodup_nil, by simp [PipelineDraft.ofBook], by simp [PipelineDraft.ofBook]⟩
  exact assemble_keeps hbase (fun _ _ c hc d hd _ => hd.applyToHead (Registry.read_wellFormed hc))
    (fun s hs d hd => BookSection.apply_made (hsections s hs) hd) hok

end BookCompiler
