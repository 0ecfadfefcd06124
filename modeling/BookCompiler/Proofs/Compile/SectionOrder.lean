import BookCompiler.Proofs.Compile.Finish
import BookCompiler.Proofs.Compile.Parts

namespace BookCompiler

open Attempt

namespace BookSection

variable {limits : Script.Limits} {ss ts : List BookSection}

theorem part?_of_foldlM {o e : Outline} (h : ss.foldlM (fun o s => (part? limits s).bind o.add) o = some e) :
    ∀ s ∈ ss, ∃ x, part? limits s = some x := by
  induction ss generalizing o with
  | nil => intro s hs; cases hs
  | cons s ss ih =>
      obtain ⟨next, hnext, hrest⟩ := Option.bind_eq_some_iff.mp (List.foldlM_cons.symm.trans h)
      obtain ⟨x, hx, -⟩ := Option.bind_eq_some_iff.mp hnext
      exact List.forall_mem_cons.mpr ⟨⟨x, hx⟩, ih hrest⟩

theorem foldlM_part? {f : BookSection → Part} (hf : ∀ s ∈ ss, part? limits s = some (f s)) (o : Outline) :
    ss.foldlM (fun o s => (part? limits s).bind o.add) o = o.addAll (ss.map f) := by
  rw [Outline.addAll, List.foldlM_map]
  induction ss generalizing o with
  | nil => rfl
  | cons s ss ih =>
      obtain ⟨hs, hss⟩ := List.forall_mem_cons.mp hf
      simp only [List.foldlM_cons, hs, Option.bind_some, ih hss]

/-- Sections in another order give the same tasks in that order, and the same parameters. -/
theorem each_perm (hperm : ts.Perm ss) (hss : ∀ s ∈ ss, s.OfTask) {d e : PipelineDraft}
    (h : (each (apply limits) ss d).accepted? = some e) :
    ∃ e', (each (apply limits) ts d).accepted? = some e' ∧ e'.parameter? = e.parameter? ∧
      e'.formfactor = e.formfactor ∧
      ∃ f : BookSection → Task, e.tasks = d.tasks ++ ss.map f ∧ e'.tasks = d.tasks ++ ts.map f := by
  have hrun := @outline_each limits ss hss d
  rw [h, Option.map_some] at hrun
  have : Nonempty Part := ⟨⟨Chatbot.title, []⟩⟩
  choose! f hf using part?_of_foldlM hrun.symm
  rw [foldlM_part? hf] at hrun
  have hother := @outline_each limits ts (fun s hs => hss s (hperm.mem_iff.mp hs)) d
  rw [foldlM_part? (fun s hs => hf s (hperm.mem_iff.mp hs)), Outline.addAll_perm (hperm.map f) hrun.symm] at hother
  obtain ⟨e', he', houtline⟩ := Option.map_eq_some_iff.mp hother
  refine ⟨e', he', congrArg Outline.slots houtline, congrArg Outline.formfactor houtline, fun s => (f s).task, ?_, ?_⟩
  · have htasks := Outline.tasks_of_addAll hrun.symm
    rwa [List.map_map] at htasks
  · have htasks := congrArg Outline.tasks houtline
    simp only [List.map_map] at htasks
    exact htasks

end BookSection

namespace PipelineDraft

variable {d e : PipelineDraft}

theorem parameters_perm (hd : d.names.Nodup) (he : e.names.Nodup) (h : e.parameter? = d.parameter?) :
    e.parameters.Perm d.parameters := by
  refine (List.perm_ext_iff_of_nodup he.of_map hd.of_map).mpr fun q => ?_
  rw [← parameter?_eq_some_iff he, ← parameter?_eq_some_iff hd, h]

/-- Drafts that differ in the order of their tasks and parameters. -/
structure Rearranged (d e : PipelineDraft) : Prop where
  parameters : e.parameters.Perm d.parameters
  tasks : e.tasks.Perm d.tasks
  formfactor : e.formfactor = d.formfactor

namespace Rearranged

theorem resolveRoles (h : d.Rearranged e) (hd : d.names.Nodup) :
    e.resolveRoles.build.parameters.Perm d.resolveRoles.build.parameters :=
  (resolveRoles_perm hd h.parameters h.tasks).map _

end Rearranged

end PipelineDraft

theorem Formfactor.fits_perm {p q : Pipeline} (h : q.parameters.Perm p.parameters) (f : Formfactor) :
    f.fits q = f.fits p := by
  have hnames (role : Role) : Name.sorted (q.namesWithRole role) = Name.sorted (p.namesWithRole role) :=
    Name.sorted_perm ((h.filter _).map _)
  rw [fits, fits, hnames, hnames]

theorem Pipeline.inferFormfactor_perm {p q : Pipeline} (h : q.parameters.Perm p.parameters)
    (hformfactor : q.formfactor = p.formfactor) : q.inferFormfactor.formfactor = p.inferFormfactor.formfactor := by
  simp only [inferFormfactor, Formfactor.fits_perm h, hformfactor]
  split <;> rename_i hf <;> simp [hformfactor, hf]

theorem Pipeline.scaffoldChatbot_of_tasks {p : Pipeline} (h : p.tasks ≠ []) : p.scaffoldChatbot = p := by
  rcases p.scaffoldChatbot_cases with hsame | ⟨-, -, hnil, -⟩
  · exact hsame
  · exact absurd hnil h

namespace PipelineDraft

theorem finish_of_tasks {d : PipelineDraft} (h : d.tasks ≠ []) (options : Options) :
    (d.finish options).tasks = d.tasks ∧ (d.finish options).parameters = d.resolveRoles.build.parameters ∧
      (d.finish options).formfactor =
        some ((if options.abstractions then d.resolveRoles.build.inferFormfactor.formfactor else d.formfactor).getD
          Formfactor.generic.name) := by
  obtain ⟨htasks, hparameters, -⟩ := d.resolveRoles.build.inferFormfactor_frame
  have hscaffold := Pipeline.scaffoldChatbot_of_tasks (p := d.resolveRoles.build.inferFormfactor)
    (by rw [htasks]; exact h)
  rw [finish]
  split
  · rw [Pipeline.applyAbstractions, hscaffold]
    exact ⟨htasks, hparameters, rfl⟩
  · exact ⟨rfl, rfl, rfl⟩

end PipelineDraft

namespace Book

theorem compile_eq_ok {options : Options} {book : Book} {p : Pipeline} : (book.compile options).result = .ok p ↔
    ∃ d, (book.assemble options.limits).accepted? = some d ∧ p = d.finish options ∧
      (options.validation = true → p.validate = .ok ()) := by
  simp only [compile, accepted?]
  cases (book.assemble options.limits).refusal with
  | some e => simp
  | none =>
      simp only [Options.check_eq_ok, Option.some.injEq, exists_eq_left']
      exact and_congr_right fun heq => by rw [heq]

theorem accepted?_assemble (limits : Script.Limits) (book : Book) : (book.assemble limits).accepted? =
    ((PipelineDraft.ofBook book).applyHead book.head.commandLines).accepted?.bind fun d =>
      (each (BookSection.apply limits) book.sections d).accepted? :=
  accepted?_andThen _ _

theorem tasks_of_applyHead {book : Book} {d : PipelineDraft}
    (h : ((PipelineDraft.ofBook book).applyHead book.head.commandLines).accepted? = some d) : d.tasks = [] := by
  obtain ⟨hok, rfl⟩ := accepted?_eq_some.mp h
  refine PipelineDraft.applyHead_keeps (I := fun d => d.tasks = []) ?_ rfl hok
  intro _ _ c _ e he _
  rw [(c.applyToHead_step e).tasks_eq, he]

/-- Every section of the book is a task, whether it says so or not. -/
def OnlyTasks (book : Book) : Prop := ∀ s ∈ book.sections, s.OfTask

instance (book : Book) : Decidable book.OnlyTasks :=
  inferInstanceAs (Decidable (∀ s ∈ book.sections, s.OfTask))

variable {options : Options} {book : Book} {sections : List BookSection}

theorem names_nodup_of_assemble {limits : Script.Limits} {d : PipelineDraft}
    (h : (book.assemble limits).accepted? = some d) : d.names.Nodup := by
  obtain ⟨hok, rfl⟩ := accepted?_eq_some.mp h
  exact (assemble_closed hok).names_nodup

theorem assemble_perm {limits : Script.Limits} (hperm : sections.Perm book.sections) (hbook : book.OnlyTasks)
    {d : PipelineDraft} (hd : (book.assemble limits).accepted? = some d) :
    ∃ e, (assemble limits { book with sections }).accepted? = some e ∧ d.Rearranged e ∧
      ∃ f : BookSection → Task, d.tasks = book.sections.map f ∧ e.tasks = sections.map f := by
  obtain ⟨head, hhead, hrun⟩ := Option.bind_eq_some_iff.mp ((accepted?_assemble limits book).symm.trans hd)
  obtain ⟨e, hrun', hslots, hformfactor, f, hdtasks, hetasks⟩ := BookSection.each_perm hperm hbook hrun
  rw [tasks_of_applyHead hhead, List.nil_append] at hdtasks hetasks
  have he : (assemble limits { book with sections }).accepted? = some e :=
    (accepted?_assemble limits { book with sections }).trans (Option.bind_eq_some_iff.mpr ⟨head, hhead, hrun'⟩)
  have hparameters := PipelineDraft.parameters_perm (names_nodup_of_assemble hd) (names_nodup_of_assemble he) hslots
  have htasks : e.tasks.Perm d.tasks := by
    rw [hdtasks, hetasks]
    exact hperm.map f
  exact ⟨e, he, ⟨hparameters, htasks, hformfactor⟩, f, hdtasks, hetasks⟩

theorem compile_of_perm (hperm : sections.Perm book.sections) (hbook : book.OnlyTasks) {p : Pipeline}
    (hp : (book.compile options).result = .ok p) :
    ∃ q, (compile options { book with sections }).result = .ok q ∧ q.tasks.Perm p.tasks ∧
      (book.sections ≠ [] → ∃ f : BookSection → Task, p.tasks = book.sections.map f ∧ q.tasks = sections.map f) ∧
      q.parameters.Perm p.parameters ∧ q.formfactor = p.formfactor := by
  by_cases hsections : book.sections = []
  · have hsame : ({ book with sections } : Book) = book := by
      rw [hsections, List.perm_nil] at hperm
      rw [hperm, ← hsections]
    rw [hsame]
    exact ⟨p, hp, .refl _, fun h => absurd hsections h, .refl _, rfl⟩
  · obtain ⟨d, hd, rfl, hvalid⟩ := compile_eq_ok.mp hp
    obtain ⟨e, he, hsame, f, hdtasks, hetasks⟩ := assemble_perm hperm hbook hd
    have hdne : d.tasks ≠ [] := by simpa [hdtasks] using hsections
    have hene : e.tasks ≠ [] := fun hnil => hdne (by simpa [hnil] using hsame.tasks)
    obtain ⟨hptasks, hpparameters, hpformfactor⟩ := d.finish_of_tasks hdne options
    obtain ⟨hqtasks, hqparameters, hqformfactor⟩ := e.finish_of_tasks hene options
    have htasks : (e.finish options).tasks.Perm (d.finish options).tasks := by
      rw [hptasks, hqtasks]
      exact hsame.tasks
    have hresolved := hsame.resolveRoles (names_nodup_of_assemble hd)
    have hparameters : (e.finish options).parameters.Perm (d.finish options).parameters := by
      rw [hpparameters, hqparameters]
      exact hresolved
    refine ⟨e.finish options, compile_eq_ok.mpr ⟨e, he, rfl, fun hon => ?_⟩, htasks, fun _ => ⟨f, ?_, ?_⟩,
      hparameters, ?_⟩
    · exact Pipeline.validate_perm htasks hparameters (hvalid hon)
    · rw [hptasks, hdtasks]
    · rw [hqtasks, hetasks]
    · rw [hpformfactor, hqformfactor, hsame.formfactor,
        Pipeline.inferFormfactor_perm hresolved hsame.formfactor]

/-- In a book of tasks the order of the sections decides about the order of the tasks and parameters only. -/
theorem compile_perm (options : Options) (book : Book) (sections : List BookSection)
    (hperm : sections.Perm book.sections) (hbook : book.OnlyTasks) :
    ((∃ q, (compile options { book with sections }).result = .ok q) ↔ ∃ p, (book.compile options).result = .ok p) ∧
      ∀ p q, (book.compile options).result = .ok p → (compile options { book with sections }).result = .ok q →
        q.tasks.Perm p.tasks ∧
        (book.sections ≠ [] → ∃ f : BookSection → Task, p.tasks = book.sections.map f ∧ q.tasks = sections.map f) ∧
        q.parameters.Perm p.parameters ∧ q.formfactor = p.formfactor := by
  have hother : OnlyTasks { book with sections } := fun s hs => hbook s (hperm.mem_iff.mp hs)
  refine ⟨⟨fun ⟨q, hq⟩ => ?_, fun ⟨p, hp⟩ => ?_⟩, fun p q hp hq => ?_⟩
  · obtain ⟨p, hp, -⟩ := compile_of_perm hperm.symm hother hq
    exact ⟨p, hp⟩
  · obtain ⟨q, hq, -⟩ := compile_of_perm hperm hbook hp
    exact ⟨q, hq⟩
  · obtain ⟨q', hq', hsame⟩ := compile_of_perm hperm hbook hp
    rw [hq] at hq'
    cases hq'
    exact hsame

def relayBook : Book where
  head := { title := "T", description := none, commandLines := ["INPUT PARAM \x7ba\x7d"] }
  sections :=
    [{ title := "A", name := "a", description := none, content := "\x7ba\x7d", language := none, result := some "b"
       commandLines := ["PARAM \x7bb\x7d note"] },
     { title := "B", name := "b", description := none, content := "\x7bb\x7d", language := none, result := some "c"
       commandLines := ["SIMPLE", "PARAM \x7bb\x7d"] }]
  source := ""

theorem compile_perm_relayBook : ∃ p q, (relayBook.compile {}).result = .ok p ∧
    (compile {} { relayBook with sections := relayBook.sections.reverse }).result = .ok q ∧
    (∃ f : BookSection → Task, p.tasks = relayBook.sections.map f ∧ q.tasks = relayBook.sections.reverse.map f) ∧
    q.parameters.Perm p.parameters ∧ q.formfactor = p.formfactor := by
  obtain ⟨p, hp⟩ := exists_of_isOk (r := (relayBook.compile {}).result) (by decide +kernel)
  obtain ⟨hiff, hsame⟩ := compile_perm {} relayBook relayBook.sections.reverse (List.reverse_perm _) (by decide +kernel)
  obtain ⟨q, hq⟩ := hiff.mpr ⟨p, hp⟩
  obtain ⟨-, htasks, hparameters, hformfactor⟩ := hsame p q hp hq
  exact ⟨p, q, hp, hq, htasks (List.cons_ne_nil _ _), hparameters, hformfactor⟩

end Book

end BookCompiler
