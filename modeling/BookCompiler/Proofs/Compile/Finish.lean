import BookCompiler.Proofs.Compile.ImplicitRoles
import BookCompiler.Proofs.Compile.Making
import BookCompiler.Proofs.Compile.Redeclared

namespace BookCompiler

open Text

namespace Chatbot

theorem mem_tasks {persona : String} {t : Task} (h : t ∈ tasks persona) :
    t = answer persona ∨ t = summary persona ∨ t = title := by
  simpa [tasks] using h

theorem made_of_plain {persona result : Option String} {title content : String} {type : TaskType}
    {expectations : Expectations} (htype : type ≠ .script) (htitle : IsTitle title) (hcontent : IsPassage content)
    (hresult : ∀ name ∈ result, Name.Valid name)
    (hexpectations : ∀ unit b, expectations.get unit = some b → b.Sound)
    (hpersona : ∀ name ∈ persona, Persona.WellNamed name) {name : String} (hname : name = Name.ofTitle title)
    (dependencies : List String) :
    Task.Made { name, title, type, content, result, dependencies, expectations, persona } := by
  have hblank : (trim content.toList).isEmpty = false := by
    rw [hcontent.trimmed.trim_eq]
    simpa using hcontent.ne_nil
  refine ⟨htitle, hname, by simp, hcontent.trimmed, Or.inr ⟨htype, rfl⟩, hresult, rfl, ?_, ?_⟩
  · exact Task.commands_wellFormed hpersona (by simp) (by simp) (by simp) (by simp)
  · exact ⟨fun _ => hblank, fun h => absurd h htype, by simp, hexpectations, by simp⟩

theorem get_empty (unit : ExpectUnit) (b : Bounds) (h : Expectations.get {} unit = some b) : b.Sound := by
  cases unit <;> cases h

theorem tasks_made {persona : String} (hpersona : Persona.WellNamed persona) : ∀ t ∈ tasks persona, t.Made := by
  intro t ht
  have hname : ∀ name ∈ some persona, Persona.WellNamed name := by
    intro name h
    cases h
    exact hpersona
  have hsummary : ∀ unit b, (Chatbot.summary persona).expectations.get unit = some b → b.Sound := by
    intro unit b hb
    cases unit <;> cases hb
    exact ⟨Or.inl rfl, by decide⟩
  have hresult : ∀ result ∈ ["chatbotResponse", "conversationSummary", "title"], ∀ name ∈ some result, Name.Valid name := by
    intro result hmem name h
    cases h
    revert result
    decide
  rcases mem_tasks ht with rfl | rfl | rfl
  · exact made_of_plain (by decide) ⟨by decide, by decide⟩ ⟨by decide +kernel, by simp⟩
      (hresult _ (by simp)) get_empty hname (by decide +kernel) _
  · exact made_of_plain (by decide) ⟨by decide, by decide⟩ ⟨by decide +kernel, by simp⟩
      (hresult _ (by simp)) hsummary hname (by decide +kernel) _
  · exact made_of_plain (by decide) ⟨by decide, by decide⟩ ⟨by decide +kernel, by simp⟩
      (hresult _ (by simp)) get_empty (by simp) (by decide +kernel) _

theorem parameters_made : ∀ q ∈ Formfactor.chatbot.parameters,
    (∀ text ∈ q.description, IsNote text) ∧ ∀ value ∈ q.examples, IsPassage value := by
  have hnote : ∀ x ∈ Formfactor.chatbot.inputs ++ Formfactor.chatbot.outputs, IsNote x.description := by decide
  intro q hq
  obtain ⟨x, role, hx, rfl⟩ : ∃ x role, x ∈ Formfactor.chatbot.inputs ++ Formfactor.chatbot.outputs ∧
      q = x.toParameter role := by
    rcases List.mem_append.mp hq with hq | hq
    · obtain ⟨x, hx, rfl⟩ := List.mem_map.mp hq
      exact ⟨x, .input, List.mem_append_left _ hx, rfl⟩
    · obtain ⟨x, hx, rfl⟩ := List.mem_map.mp hq
      exact ⟨x, .output, List.mem_append_right _ hx, rfl⟩
  refine ⟨fun text htext => ?_, fun value hvalue => by cases hvalue⟩
  cases htext
  exact hnote x hx

theorem role_ne_intermediate : ∀ q ∈ Formfactor.chatbot.parameters, q.role ≠ .intermediate := by
  decide

theorem persona_of_mem_tasks {persona : String} {t : Task} (h : t ∈ tasks persona) : ∀ name ∈ t.persona, name = persona := by
  rcases mem_tasks h with rfl | rfl | rfl
  · rintro name ⟨⟩
    rfl
  · rintro name ⟨⟩
    rfl
  · rintro name ⟨⟩

end Chatbot

theorem Pipeline.scaffoldChatbot_tasks {p : Pipeline} {I : Task → Prop} (h : ∀ t ∈ p.tasks, I t)
    (hchatbot : ∀ q ∈ p.personas, ∀ t ∈ Chatbot.tasks q.name, I t) : ∀ t ∈ p.scaffoldChatbot.tasks, I t := by
  rw [Pipeline.scaffoldChatbot]
  split
  · exact h
  · rename_i q rest hpersonas
    split
    · exact hchatbot q (by rw [hpersonas]; exact List.mem_cons_self)
    · exact h

/-- What finishing a draft leaves alone. -/
structure Pipeline.SameHead (p q : Pipeline) : Prop where
  title : q.title = p.title
  description : q.description = p.description
  bookVersion : q.bookVersion = p.bookVersion
  url : q.url = p.url
  requirements : q.requirements = p.requirements
  personas : q.personas = p.personas
  knowledgeSources : q.knowledgeSources = p.knowledgeSources

theorem Pipeline.sameHead_inferFormfactor (p : Pipeline) : p.SameHead p.inferFormfactor := by
  rw [inferFormfactor]
  split <;> exact ⟨rfl, rfl, rfl, rfl, rfl, rfl, rfl⟩

theorem Pipeline.sameHead_scaffoldChatbot (p : Pipeline) : p.SameHead p.scaffoldChatbot := by
  rw [scaffoldChatbot]
  split
  · exact ⟨rfl, rfl, rfl, rfl, rfl, rfl, rfl⟩
  · split <;> exact ⟨rfl, rfl, rfl, rfl, rfl, rfl, rfl⟩

namespace PipelineDraft

variable {d : PipelineDraft}

theorem sameHead_finish (d : PipelineDraft) (options : Options) : d.build.SameHead (d.finish options) := by
  rw [finish]
  split
  · have hinfer := d.resolveRoles.build.sameHead_inferFormfactor
    have hscaffold := d.resolveRoles.build.inferFormfactor.sameHead_scaffoldChatbot
    exact ⟨hscaffold.title.trans hinfer.title, hscaffold.description.trans hinfer.description,
      hscaffold.bookVersion.trans hinfer.bookVersion, hscaffold.url.trans hinfer.url,
      hscaffold.requirements.trans hinfer.requirements, hscaffold.personas.trans hinfer.personas,
      hscaffold.knowledgeSources.trans hinfer.knowledgeSources⟩
  · exact ⟨rfl, rfl, rfl, rfl, rfl, rfl, rfl⟩

theorem finish_tasks (options : Options) {I : Task → Prop} (h : ∀ t ∈ d.tasks, I t)
    (hchatbot : ∀ q ∈ d.personas, ∀ t ∈ Chatbot.tasks q.name, I t) : ∀ t ∈ (d.finish options).tasks, I t := by
  rw [finish]
  split
  · apply Pipeline.scaffoldChatbot_tasks
    · rw [d.resolveRoles.build.inferFormfactor_frame.1]
      exact h
    · rw [d.resolveRoles.build.sameHead_inferFormfactor.personas]
      exact hchatbot
  · exact h

theorem Made.finish_tasks (hd : d.Made) (options : Options) :
    ∀ t ∈ (d.finish options).tasks, t.Made ∧ ∀ name ∈ t.persona, name ∈ d.personaNames := by
  refine PipelineDraft.finish_tasks (I := fun t => t.Made ∧ ∀ name ∈ t.persona, name ∈ d.personaNames) options ?_ ?_
  · exact fun t ht => ⟨hd.tasks t ht, hd.tasks_persona t ht⟩
  · intro q hq t ht
    refine ⟨Chatbot.tasks_made (hd.personas q hq).name t ht, fun name hname => ?_⟩
    rw [Chatbot.persona_of_mem_tasks ht name hname]
    exact List.mem_map_of_mem hq

end PipelineDraft

namespace Pipeline

variable {p : Pipeline}

theorem scaffoldChatbot_tasks_ne_nil (h : p.personas ≠ []) (hbare : p.isBare = true) : p.scaffoldChatbot.tasks ≠ [] := by
  rw [scaffoldChatbot]
  split
  · exact absurd ‹_› h
  · rw [hbare]
    exact List.cons_ne_nil _ _

theorem isBare_iff (p : Pipeline) : p.isBare = true ↔
    (∀ f ∈ p.formfactor, f = Formfactor.chatbot.name) ∧ p.parameters = [] ∧ p.tasks = [] := by
  rw [isBare]
  cases p.formfactor <;> simp [and_assoc]

theorem formfactor_scaffoldChatbot_ne (htasks : p.scaffoldChatbot.tasks = []) (hparameters : p.scaffoldChatbot.parameters = [])
    (hpersonas : p.personas ≠ []) : p.scaffoldChatbot.formfactorName ≠ Formfactor.chatbot.name := by
  intro hname
  rcases p.scaffoldChatbot_cases with hsame | ⟨persona, -, -, hchatbot, -⟩
  · rw [hsame] at htasks hparameters hname
    apply scaffoldChatbot_tasks_ne_nil hpersonas
    · rw [isBare_iff]
      refine ⟨fun f hf => ?_, hparameters, htasks⟩
      rwa [formfactorName, hf] at hname
    · rwa [hsame]
  · rw [hchatbot] at htasks
    cases htasks

end Pipeline

namespace PipelineDraft

variable {d : PipelineDraft}

theorem finish_parameters (options : Options) {I : Parameter → Prop} (h : ∀ q ∈ d.resolveRoles.build.parameters, I q)
    (hchatbot : ∀ q ∈ Formfactor.chatbot.parameters, I q) : ∀ q ∈ (d.finish options).parameters, I q := by
  rcases d.finish_cases options with ⟨hparameters, -⟩ | ⟨-, -, -, -, -, -, hparameters⟩
  · rw [hparameters]
    exact h
  · rw [hparameters]
    exact hchatbot

theorem finish_formfactor (hd : d.Made) (options : Options) :
    ∃ f ∈ Formfactor.all, (d.finish options).formfactor = some f.name := by
  have hname (p : Pipeline) (h : ∀ name ∈ p.formfactor, ∃ f ∈ Formfactor.all, f.name = name) :
      ∃ f ∈ Formfactor.all, some p.formfactorName = some f.name := by
    cases hf : p.formfactor with
    | none => exact ⟨Formfactor.generic, by decide, by rw [Pipeline.formfactorName, hf]; rfl⟩
    | some name =>
        obtain ⟨f, hmem, rfl⟩ := h name hf
        exact ⟨f, hmem, by rw [Pipeline.formfactorName, hf]; rfl⟩
  have hinfer : ∀ name ∈ d.resolveRoles.build.inferFormfactor.formfactor, ∃ f ∈ Formfactor.all, f.name = name := by
    rw [Pipeline.inferFormfactor]
    split
    · exact hd.formfactor
    · intro name h
      obtain ⟨f, hfind, rfl⟩ := Option.map_eq_some_iff.mp h
      exact ⟨f, List.mem_of_find?_eq_some hfind, rfl⟩
  rw [finish]
  split
  · apply hname
    rw [Pipeline.applyAbstractions, Pipeline.scaffoldChatbot]
    split
    · exact hinfer
    · split
      · intro name h
        cases h
        exact ⟨Formfactor.chatbot, by decide, rfl⟩
      · exact hinfer
  · exact hname _ hd.formfactor

theorem Made.finish_parameters_made (hd : d.Made) (hnames : d.names.Nodup) (options : Options) :
    ∀ q ∈ (d.finish options).parameters, (∀ text ∈ q.description, IsNote text) ∧ ∀ value ∈ q.examples, IsPassage value := by
  refine finish_parameters (I := fun q => (∀ text ∈ q.description, IsNote text) ∧ ∀ value ∈ q.examples, IsPassage value)
    options ?_ ?_
  · intro q hq
    obtain ⟨r, hr, rfl⟩ := (mem_parameters_resolveRoles hnames).mp hq
    exact ⟨(hd.parameters r hr).description, (hd.parameters r hr).examples⟩
  · exact Chatbot.parameters_made

theorem Made.headCommands_made (hd : d.Made) (hnames : d.names.Nodup) (options : Options) :
    ∀ c ∈ (d.finish options).headCommands, c.Made := by
  have hhead := d.sameHead_finish options
  intro c hc
  rw [Pipeline.headCommands_eq, Pipeline.headOf, hhead.bookVersion, hhead.url, hhead.personas, hhead.requirements] at hc
  simp only [List.mem_append, Option.mem_toList, Option.map_eq_some_iff, List.mem_map] at hc
  rcases hc with ⟨version, hversion, rfl⟩ | ⟨url, hurl, rfl⟩ | ⟨name, hname, rfl⟩ | ⟨q, hq, rfl⟩ | ⟨q, hq, rfl⟩ |
    ⟨content, -, rfl⟩ | ⟨r, hr, rfl⟩
  · exact hd.bookVersion version hversion
  · exact hd.url url hurl
  · obtain ⟨f, hf, hformfactor⟩ := finish_formfactor hd options
    rw [hformfactor] at hname
    exact ⟨f, hf, Option.some.inj (Option.filter_eq_some_iff.mp hname).1⟩
  · refine ⟨(hd.finish_parameters_made hnames options q (List.mem_of_mem_filter hq)).1, ?_⟩
    rintro ⟨hinput, houtput⟩
    have hi : q.role = .input := by simpa [Parameter.declaration, Parameter.isInput] using hinput
    have ho : q.role = .output := by simpa [Parameter.declaration, Parameter.isOutput] using houtput
    rw [hi] at ho
    cases ho
  · exact ⟨(hd.personas q hq).name, (hd.personas q hq).description⟩
  · trivial
  · cases hs : d.requirements with
    | none =>
        rw [build, hs] at hr
        cases hr
    | some rs =>
        rw [build, hs] at hr
        exact (hd.requirements rs hs).wellFormed r hr

/-- A pipeline that is compiled with all abstractions is like any that a book compiles to. -/
theorem Made.finish (hd : d.Made) (hnames : d.names.Nodup) (options : Options)
    (habstractions : options.abstractions = true) : (d.finish options).Made := by
  have hhead := d.sameHead_finish options
  constructor
  · rw [hhead.title]
    exact hd.title
  · rw [hhead.description]
    exact hd.description
  · exact hd.headCommands_made hnames options
  · exact fun t ht => (hd.finish_tasks options t ht).1
  · rw [hhead.knowledgeSources]
    exact fun k hk => (hd.knowledge k hk).trimmed
  · exact fun q hq => (hd.finish_parameters_made hnames options q hq).2
  · rcases d.finish_cases options with ⟨hparameters, htasks⟩ | ⟨-, -, -, -, -, -, hparameters⟩
    · intro q hq hrole
      rw [hparameters] at hq ⊢
      rw [htasks]
      exact rolesSettled_resolveRoles hnames (fun r hr => (hd.parameters r hr).role) q hq hrole
    · intro q hq hrole
      rw [hparameters] at hq
      exact absurd hrole (Chatbot.role_ne_intermediate q hq)
  · intro htasks hparameters hpersonas hformfactor
    rw [hhead.personas] at hpersonas
    simp only [PipelineDraft.finish, habstractions, if_true] at htasks hparameters hformfactor
    refine Pipeline.formfactor_scaffoldChatbot_ne htasks hparameters ?_ (Option.some.inj hformfactor)
    rw [d.resolveRoles.build.sameHead_inferFormfactor.personas]
    exact hpersonas

end PipelineDraft

end BookCompiler
