import BookCompiler.Proofs.Compile.Finish

namespace BookCompiler

namespace Formfactor

variable {f : Formfactor} {p : Pipeline}

theorem hasEmptyInterface_iff (f : Formfactor) :
    f.hasEmptyInterface = true ↔ f.inputNames = [] ∧ f.outputNames = [] := by
  simp [hasEmptyInterface, inputNames, outputNames]

theorem names_of_fits (h : f.fits p = true) :
    (∀ name, name ∈ p.namesWithRole .input ↔ name ∈ f.inputNames) ∧
      ∀ name, name ∈ p.namesWithRole .output ↔ name ∈ f.outputNames := by
  simp only [fits, Bool.and_eq_true, decide_eq_true_eq] at h
  obtain ⟨⟨-, hinputs⟩, houtputs⟩ := h
  constructor
  · intro name
    rw [← Name.mem_sorted, ← hinputs, Name.mem_sorted]
  · intro name
    rw [← Name.mem_sorted, ← houtputs, Name.mem_sorted]

theorem parameters_ne_nil_of_fits (h : f.fits p = true) : p.parameters ≠ [] := by
  intro hnil
  obtain ⟨hinputs, houtputs⟩ := names_of_fits h
  have hnames (role : Role) : p.namesWithRole role = [] := by simp [Pipeline.namesWithRole, hnil]
  have hempty : f.hasEmptyInterface = true := by
    rw [hasEmptyInterface_iff]
    constructor
    · exact List.eq_nil_iff_forall_not_mem.mpr fun name hname => by simpa [hnames] using (hinputs name).mpr hname
    · exact List.eq_nil_iff_forall_not_mem.mpr fun name hname => by simpa [hnames] using (houtputs name).mpr hname
  simp [fits, hempty] at h

theorem find?_name : ∀ f ∈ all, find? f.name = some f := by
  decide

end Formfactor

namespace Chatbot

theorem expectationFault?_tasks (persona : String) : ∀ t ∈ tasks persona, t.expectationFault? = none := by
  intro t ht
  rcases mem_tasks ht with rfl | rfl | rfl
  · rfl
  · rfl
  · rfl

theorem runs_tasks (persona : String) {known : List String}
    (h : ["previousConversationSummary", "userMessage"] ⊆ known) : Runs known (tasks persona) := by
  simp only [List.cons_subset, List.nil_subset, and_true] at h
  simp only [tasks, runs_cons, runs_nil, Task.isReady_iff, and_true]
  simp [answer, summary, title, h]

/-- A pipeline that is made a chatbot passes all checks, whatever else it has. -/
theorem valid (persona : String) {p : Pipeline} (htasks : p.tasks = tasks persona)
    (hparameters : p.parameters = Formfactor.chatbot.parameters) : p.validate = .ok () := by
  have hclosed := closed ⟨0, 0⟩ persona p htasks hparameters
  have hinputs : p.namesWithRole .input = ["previousTitle", "previousConversationSummary", "userMessage"] := by
    rw [Pipeline.namesWithRole, hparameters]
    decide
  have hproducers : p.singleProducers = .ok () := by
    rw [Pipeline.singleProducers_ok_iff, htasks, results_tasks]
    refine ⟨by decide, ?_⟩
    simp only [Pipeline.parameter?, hparameters]
    decide
  have hexpectations : p.soundExpectations = .ok () := by
    rw [Pipeline.soundExpectations_ok_iff, htasks]
    exact expectationFault?_tasks persona
  have hresolvable : p.resolvable = .ok () := by
    rw [Pipeline.resolvable_ok_iff, ← Pipeline.exists_order_iff]
    refine ⟨tasks persona, htasks ▸ .refl _, ?_⟩
    rw [Pipeline.CanRun, hinputs]
    exact runs_tasks persona (by decide)
  rw [Pipeline.validate, Pipeline.uniqueNames_ok hclosed.parameters_distinct hclosed.tasks_distinct,
    Pipeline.declaredParameters_ok_iff.mpr hclosed.used_declared, hproducers, hexpectations, hresolvable]
  rfl

end Chatbot

namespace Pipeline

variable {p q : Pipeline}

/-- What the abstractions make of a pipeline: they leave it, they name the interface that its parameters have, or
they make a chatbot of a persona and nothing else. -/
inductive Enriches (p : Pipeline) : Pipeline → Prop
  | left (h : p.applyAbstractions = p) : Enriches p p
  | named (f : Formfactor) (hf : f ∈ Formfactor.all) (hopen : p.formfactor = none) (hfits : f.fits p = true) :
      Enriches p { p with formfactor := some f.name }
  | scaffolded (persona : Persona) (hpersona : persona ∈ p.personas.head?)
      (hformfactor : ∀ name ∈ p.formfactor, name = Formfactor.chatbot.name) (hparameters : p.parameters = [])
      (htasks : p.tasks = []) :
      Enriches p
        { p with
          tasks := Chatbot.tasks persona.name
          parameters := Formfactor.chatbot.parameters
          formfactor := some Formfactor.chatbot.name }

theorem scaffoldChatbot_of_not_bare (h : p.personas ≠ [] → p.isBare = false) : p.scaffoldChatbot = p := by
  rw [scaffoldChatbot]
  split
  · rfl
  · rename_i persona rest hpersonas
    rw [h (by simp [hpersonas])]
    rfl

theorem formfactor_inferFormfactor {f : String} (h : p.formfactor = some f) : p.inferFormfactor = p := by
  simp [inferFormfactor, h]

theorem formfactor_inferFormfactor_eq_none (hp : p.parameters = []) (h : p.formfactor = none) :
    p.inferFormfactor.formfactor = none := by
  have hfits : Formfactor.all.find? (·.fits p) = none := by
    rw [List.find?_eq_none]
    exact fun f _ hfits => Formfactor.parameters_ne_nil_of_fits hfits hp
  simp [inferFormfactor, h, hfits]

theorem enriches_of_inferred (h : p.inferFormfactor = p) : p.Enriches p.applyAbstractions := by
  have hscaffold : p.applyAbstractions = p.scaffoldChatbot := by rw [applyAbstractions, h]
  by_cases hleft : p.personas ≠ [] → p.isBare = false
  · have hsame := hscaffold.trans (scaffoldChatbot_of_not_bare hleft)
    rw [hsame]
    exact .left hsame
  · push Not at hleft
    obtain ⟨hpersonas, hbare⟩ := hleft
    rw [ne_eq, Bool.not_eq_false] at hbare
    obtain ⟨hformfactor, hparameters, htasks⟩ := (isBare_iff p).mp hbare
    rw [hscaffold, scaffoldChatbot]
    split
    · exact absurd ‹_› hpersonas
    · rename_i persona rest hcons
      rw [if_pos hbare]
      exact .scaffolded persona (by simp [hcons]) hformfactor hparameters htasks

theorem enriches_applyAbstractions (p : Pipeline) : p.Enriches p.applyAbstractions := by
  cases hformfactor : p.formfactor with
  | some name => exact enriches_of_inferred (formfactor_inferFormfactor hformfactor)
  | none =>
      cases hfind : Formfactor.all.find? (·.fits p) with
      | none =>
          apply enriches_of_inferred
          rw [inferFormfactor]
          split
          · rfl
          · rw [hfind, Option.map_none, ← hformfactor]
      | some f =>
          have hfits : f.fits p = true := by simpa using List.find?_some hfind
          have hinferred : p.inferFormfactor = { p with formfactor := some f.name } := by
            rw [inferFormfactor, hformfactor, hfind]
            rfl
          have hnamed := Enriches.named f (List.mem_of_find?_eq_some hfind) hformfactor hfits
          rwa [applyAbstractions, hinferred, scaffoldChatbot_of_not_bare]
          intro _
          rw [← Bool.not_eq_true, isBare_iff]
          exact fun hbare => Formfactor.parameters_ne_nil_of_fits hfits hbare.2.1

theorem applyAbstractions_eq_self {name : String} (hformfactor : p.formfactor = some name)
    (hgraph : p.parameters ≠ [] ∨ p.tasks ≠ []) : p.applyAbstractions = p := by
  rw [applyAbstractions, formfactor_inferFormfactor hformfactor]
  apply scaffoldChatbot_of_not_bare
  intro _
  rw [← Bool.not_eq_true, isBare_iff]
  rintro ⟨-, hparameters, htasks⟩
  exact hgraph.elim (absurd hparameters) (absurd htasks)

namespace Enriches

theorem idem (h : p.Enriches q) : q.applyAbstractions = q := by
  cases h with
  | left hsame => exact hsame
  | named f hf hopen hfits => exact applyAbstractions_eq_self rfl (.inl (Formfactor.parameters_ne_nil_of_fits hfits))
  | scaffolded => exact applyAbstractions_eq_self rfl (.inr (List.cons_ne_nil _ _))

theorem validate_ok (h : p.Enriches q) (hvalid : p.validate = .ok ()) : q.validate = .ok () := by
  cases h with
  | left => exact hvalid
  | named => exact validate_perm (p := p) (.refl _) (.refl _) hvalid
  | scaffolded persona => exact Chatbot.valid persona.name rfl rfl

theorem formfactor_kept (h : p.Enriches q) {name : String} (hname : p.formfactor = some name) :
    q.formfactor = some name := by
  cases h with
  | left => exact hname
  | named f hf hopen =>
      rw [hopen] at hname
      cases hname
  | scaffolded persona hpersona hformfactor => rw [hformfactor name hname]

theorem graph_kept (h : p.Enriches q) (hgraph : p.tasks ≠ [] ∨ p.parameters ≠ []) :
    q.tasks = p.tasks ∧ q.parameters = p.parameters := by
  cases h with
  | left | named => exact ⟨rfl, rfl⟩
  | scaffolded persona hpersona hformfactor hparameters htasks =>
      exact absurd hgraph (by simp [hparameters, htasks])

theorem frame (h : p.Enriches q) :
    q = { p with formfactor := q.formfactor, tasks := q.tasks, parameters := q.parameters } := by
  cases h <;> rfl

theorem interface (h : p.Enriches q) (hopen : p.formfactor = none) (hparameters : p.parameters ≠ []) {name : String}
    (hname : q.formfactor = some name) : ∃ f, Formfactor.find? name = some f ∧ f.name = name ∧
      (∀ x, x ∈ p.namesWithRole .input ↔ x ∈ f.inputNames) ∧
      ∀ x, x ∈ p.namesWithRole .output ↔ x ∈ f.outputNames := by
  cases h with
  | left =>
      rw [hopen] at hname
      cases hname
  | named f hf _ hfits =>
      cases hname
      exact ⟨f, Formfactor.find?_name f hf, rfl, Formfactor.names_of_fits hfits⟩
  | scaffolded persona hpersona hformfactor hnil => exact absurd hnil hparameters

end Enriches

/-- The abstractions fill in what is missing and touch nothing else. To apply them once is enough, a valid pipeline
stays valid, an interface that was given stays, tasks and parameters are added only where there are neither, and an
interface that is found is that of the inputs and outputs. -/
theorem applyAbstractions_fills (p : Pipeline) :
    p.applyAbstractions.applyAbstractions = p.applyAbstractions ∧
    (p.validate = .ok () → p.applyAbstractions.validate = .ok ()) ∧
    (∀ name, p.formfactor = some name → p.applyAbstractions.formfactor = some name) ∧
    (p.applyAbstractions.tasks ≠ p.tasks ∨ p.applyAbstractions.parameters ≠ p.parameters →
      p.tasks = [] ∧ p.parameters = []) ∧
    p.applyAbstractions =
      { p with
        formfactor := p.applyAbstractions.formfactor
        tasks := p.applyAbstractions.tasks
        parameters := p.applyAbstractions.parameters } ∧
    (p.formfactor = none → p.parameters ≠ [] → ∀ name, p.applyAbstractions.formfactor = some name →
      ∃ f, Formfactor.find? name = some f ∧ f.name = name ∧
        (∀ x, x ∈ p.namesWithRole .input ↔ x ∈ f.inputNames) ∧
        ∀ x, x ∈ p.namesWithRole .output ↔ x ∈ f.outputNames) := by
  have h := p.enriches_applyAbstractions
  refine ⟨h.idem, h.validate_ok, fun _ => h.formfactor_kept, ?_, h.frame,
    fun hopen hparameters _ => h.interface hopen hparameters⟩
  intro hchanged
  by_contra hgraph
  obtain ⟨htasks, hparameters⟩ := h.graph_kept (by tauto)
  exact hchanged.elim (absurd htasks) (absurd hparameters)

def interpreter : Pipeline where
  title := "Interpreter"
  parameters := [{ name := "outputMessage", role := .output }, { name := "inputMessage", role := .input }]

def hermit : Pipeline where
  title := "Paul"
  personas := [{ name := "Paul" }]

theorem applyAbstractions_fills_hermit :
    (hermit.applyAbstractions.validate = .ok () ∧ hermit.applyAbstractions.parameters.length = 6) ∧
    (interpreter.applyAbstractions.formfactor = some "TRANSLATOR" ∧
      ∃ f, Formfactor.find? "TRANSLATOR" = some f ∧ ∀ x, x ∈ interpreter.namesWithRole .input ↔ x ∈ f.inputNames) := by
  obtain ⟨-, hvalid, -⟩ := applyAbstractions_fills hermit
  obtain ⟨-, -, -, -, -, hinterface⟩ := applyAbstractions_fills interpreter
  have hformfactor : interpreter.applyAbstractions.formfactor = some "TRANSLATOR" := by decide
  obtain ⟨f, hfind, -, hinputs, -⟩ := hinterface rfl (by decide) _ hformfactor
  exact ⟨⟨hvalid rfl, rfl⟩, hformfactor, f, hfind, hinputs⟩

end Pipeline

end BookCompiler
