import BookCompiler.Compile.Basic
import Mathlib.Data.List.Basic

namespace BookCompiler

namespace Attempt

variable {ε ε' α β : Type}

theorem andThen_accepted (a : Attempt ε α) (f : α → Attempt ε α) :
    (a.andThen f).refusal = none ↔ a.refusal = none ∧ (f a.draft).refusal = none := by
  cases h : a.refusal <;> simp [andThen, h]

theorem andThen_draft {a : Attempt ε α} (h : a.refusal = none) (f : α → Attempt ε α) :
    (a.andThen f).draft = (f a.draft).draft := by
  simp [andThen, h]

/-- What an accepted attempt leaves behind. -/
def accepted? (a : Attempt ε α) : Option α :=
  match a.refusal with
  | none => some a.draft
  | some _ => none

theorem accepted?_eq_some {a : Attempt ε α} {x : α} : a.accepted? = some x ↔ a.refusal = none ∧ a.draft = x := by
  cases h : a.refusal <;> simp [accepted?, h]

theorem accepted?_map (a : Attempt ε α) (f : α → β) : (a.map f).accepted? = a.accepted?.map f := by
  cases h : a.refusal <;> simp [accepted?, map, h]

theorem accepted?_mapRefusal (a : Attempt ε α) (f : ε → ε') : (a.mapRefusal f).accepted? = a.accepted? := by
  cases h : a.refusal <;> simp [accepted?, mapRefusal, h]

theorem accepted?_andThen (a : Attempt ε α) (f : α → Attempt ε α) :
    (a.andThen f).accepted? = a.accepted?.bind fun x => (f x).accepted? := by
  cases h : a.refusal <;> simp [accepted?, andThen, h]

theorem accepted?_each (f : β → α → Attempt ε α) (bs : List β) (a : α) :
    (each f bs a).accepted? = bs.foldlM (fun a b => (f b a).accepted?) a := by
  induction bs generalizing a with
  | nil => rfl
  | cons b bs ih =>
      rw [each, accepted?_andThen, List.foldlM_cons]
      exact congrArg _ (funext ih)

/-- What every accepted step keeps, an accepted run keeps. -/
theorem each_keeps {I : α → Prop} {f : β → α → Attempt ε α} {bs : List β}
    (step : ∀ b ∈ bs, ∀ a, I a → (f b a).refusal = none → I (f b a).draft) {a : α} (ha : I a)
    (hok : (each f bs a).refusal = none) : I (each f bs a).draft := by
  induction bs generalizing a with
  | nil => exact ha
  | cons b rest ih =>
      obtain ⟨hfirst, hrest⟩ := (andThen_accepted _ _).mp hok
      have hb := step b (List.mem_cons_self ..) a ha hfirst
      rw [each, andThen_draft hfirst]
      exact ih (fun c hc => step c (List.mem_cons_of_mem b hc)) hb hrest

theorem each_takes {C : α → List β → Prop} {f : β → α → Attempt ε α} {bs : List β}
    (step : ∀ b ∈ bs, ∀ a seen, C a seen → (f b a).refusal = none → C (f b a).draft (seen ++ [b])) {a : α}
    {seen : List β} (ha : C a seen) (hok : (each f bs a).refusal = none) : C (each f bs a).draft (seen ++ bs) := by
  induction bs generalizing a seen with
  | nil => simpa [each, done] using ha
  | cons b rest ih =>
      obtain ⟨hb, hbs⟩ := List.forall_mem_cons.mp step
      obtain ⟨hfirst, hrest⟩ := (andThen_accepted _ _).mp hok
      rw [each, andThen_draft hfirst, List.append_cons]
      exact ih hbs (hb a seen ha hfirst) hrest

theorem each_accepts {C : α → List β → Prop} {K : List β → Prop} {f : β → α → Attempt ε α} {bs : List β}
    (step : ∀ b ∈ bs, ∀ a seen, C a seen → (f b a).refusal = none → C (f b a).draft (seen ++ [b]))
    (accepts : ∀ b ∈ bs, ∀ a seen, C a seen → K (seen ++ [b]) → (f b a).refusal = none)
    (hinitial : ∀ l l', K (l ++ l') → K l) {a : α} {seen : List β} (ha : C a seen) (hall : K (seen ++ bs)) :
    (each f bs a).refusal = none := by
  induction bs generalizing a seen with
  | nil => rfl
  | cons b rest ih =>
      obtain ⟨hb, hbs⟩ := List.forall_mem_cons.mp step
      obtain ⟨hb', hbs'⟩ := List.forall_mem_cons.mp accepts
      rw [List.append_cons] at hall
      have hfirst := hb' a seen ha (hinitial _ _ hall)
      exact (andThen_accepted _ _).mpr ⟨hfirst, ih hbs hbs' (hb a seen ha hfirst) hall⟩

theorem each_establishes {P : β → α → Prop} {f : β → α → Attempt ε α} {bs : List β}
    (own : ∀ b ∈ bs, ∀ a, (f b a).refusal = none → P b (f b a).draft)
    (kept : ∀ b c a, P b a → P b (f c a).draft) {a : α} (hok : (each f bs a).refusal = none) :
    ∀ b ∈ bs, P b (each f bs a).draft := by
  induction bs generalizing a with
  | nil => intro b hb; cases hb
  | cons c rest ih =>
      obtain ⟨hfirst, hrest⟩ := (andThen_accepted _ _).mp hok
      rw [each, andThen_draft hfirst]
      intro b hb
      rcases List.mem_cons.mp hb with rfl | hb
      · have hown := own b (List.mem_cons_self ..) a hfirst
        exact each_keeps (fun c _ a ha _ => kept b c a ha) hown hrest
      · exact ih (fun b hb => own b (List.mem_cons_of_mem c hb)) hrest b hb

end Attempt

theorem readCommands_ok_iff {place : Place} {lines : List String} {cs : List WrittenCommand} :
    (readCommands place lines).1 = .ok cs ↔
      cs.map WrittenCommand.line = lines ∧
        ∀ c ∈ cs, Registry.builtIn.read place c.line = .ok c.command := by
  induction lines generalizing cs with
  | nil => cases cs <;> simp [readCommands]
  | cons line rest ih =>
      simp only [readCommands]
      cases hread : Registry.builtIn.read place line with
      | error e =>
          cases cs with
          | nil => simp
          | cons c cs =>
              simp only [reduceCtorEq, List.map_cons, List.cons.injEq, List.mem_cons,
                forall_eq_or_imp, false_iff]
              rintro ⟨⟨rfl, -⟩, hc, -⟩
              rw [hread] at hc
              cases hc
      | ok command =>
          cases cs with
          | nil => cases hrest : (readCommands place rest).1 <;> simp [Except.map]
          | cons c cs =>
              simp only [List.map_cons, List.cons.injEq, List.mem_cons, forall_eq_or_imp]
              constructor
              · intro h
                cases hrest : (readCommands place rest).1 with
                | error e => simp [hrest, Except.map] at h
                | ok ds =>
                    simp only [hrest, Except.map, Except.ok.injEq, List.cons.injEq] at h
                    obtain ⟨rfl, rfl⟩ := h
                    obtain ⟨hlines, hall⟩ := ih.mp hrest
                    exact ⟨⟨rfl, hlines⟩, hread, hall⟩
              · rintro ⟨⟨rfl, hlines⟩, hc, hall⟩
                rw [hread, Except.ok.injEq] at hc
                subst hc
                rw [ih.mpr ⟨hlines, hall⟩]
                rfl

theorem mem_readCommands {place : Place} {lines : List String} {cs : List WrittenCommand}
    (h : (readCommands place lines).1 = .ok cs) {c : WrittenCommand} (hc : c ∈ cs) :
    c.line ∈ lines ∧ Registry.builtIn.read place c.line = .ok c.command := by
  obtain ⟨rfl, hall⟩ := readCommands_ok_iff.mp h
  exact ⟨List.mem_map_of_mem hc, hall c hc⟩

theorem owner?_builtIn (c : Command) : Registry.builtIn.owner? c = some c.kind := by
  cases c <;> rfl

namespace PipelineDraft

theorem applyHeadCommand_accepted {c : WrittenCommand} {d : PipelineDraft}
    (h : (applyHeadCommand c d).refusal = none) :
    (c.command.applyToHead d).refusal = none ∧
      (applyHeadCommand c d).draft = (c.command.applyToHead d).draft := by
  simp only [applyHeadCommand, owner?_builtIn, CommandKind.applyToHead] at h ⊢
  split at h
  · simp [Attempt.mapRefusal, Attempt.refused] at h
  · exact ⟨by simpa [Attempt.mapRefusal] using h, rfl⟩

theorem applyHead_keeps {I : PipelineDraft → Prop} {lines : List String}
    (step : ∀ line ∈ lines, ∀ c, Registry.builtIn.read .head line = .ok c →
      ∀ d, I d → (c.applyToHead d).refusal = none → I (c.applyToHead d).draft)
    {d : PipelineDraft} (hd : I d) (hok : (d.applyHead lines).refusal = none) :
    I (d.applyHead lines).draft := by
  simp only [applyHead] at hok ⊢
  split at hok
  · simp at hok
  · rename_i cs notices hcs
    obtain ⟨-, hrun⟩ := (Attempt.andThen_accepted _ _).mp hok
    rw [Attempt.andThen_draft rfl]
    refine Attempt.each_keeps ?_ hd hrun
    intro c hc d hd haccepted
    obtain ⟨hcommand, hdraft⟩ := applyHeadCommand_accepted haccepted
    obtain ⟨hline, hread⟩ := mem_readCommands (congrArg Prod.fst hcs) hc
    rw [hdraft]
    exact step c.line hline c.command hread d hd hcommand

end PipelineDraft

theorem Workpiece.applyCommand_accepted {c : WrittenCommand} {w : Workpiece}
    (h : (applyCommand c w).refusal = none) :
    (c.command.applyToTask w).refusal = none ∧
      (applyCommand c w).draft = (c.command.applyToTask w).draft := by
  simp only [applyCommand, owner?_builtIn, CommandKind.applyToTask] at h ⊢
  split at h
  · simp [Attempt.mapRefusal, Attempt.refused] at h
  · exact ⟨by simpa [Attempt.mapRefusal] using h, rfl⟩

theorem TaskDraft.build_eq_some {d : TaskDraft} {t : Task} (h : d.build = some t) :
    ∃ type, d.sectionType.bind SectionType.taskType = some type ∧ t =
      { name := d.name, title := d.title, description := d.description, type, content := d.content
        language := d.language, result := d.result, jokers := d.jokers
        postprocessing := d.postprocessing, expectations := d.expectations, format := d.format
        foreach := d.foreach, persona := d.persona
        requirements := d.requirements.filter (!·.isEmpty) } := by
  cases hsection : d.sectionType with
  | none => simp [build, hsection] at h
  | some type =>
      cases htype : type.taskType with
      | none => simp [build, hsection, htype] at h
      | some taskType => exact ⟨taskType, htype, by simpa [build, hsection, htype, eq_comm] using h⟩

namespace BookSection

/-- A command of a section: it is written there, or it is the type that sections have by default. -/
def Gives (s : BookSection) (c : Command) : Prop :=
  c = .sectionType .prompt ∨ ∃ line ∈ s.commandLines, Registry.builtIn.read .task line = .ok c

theorem gives_of_mem {s : BookSection} {cs : List WrittenCommand}
    (h : (readCommands .task s.commandLines).1 = .ok cs) {c : WrittenCommand}
    (hc : c ∈ withSectionType cs) : s.Gives c.command := by
  simp only [withSectionType] at hc
  have hwritten : ∀ c ∈ cs, s.Gives c.command := fun c hc => Or.inr ⟨c.line, mem_readCommands h hc⟩
  split at hc
  · exact hwritten c hc
  · rcases List.mem_cons.mp hc with rfl | hc
    · exact Or.inl rfl
    · exact hwritten c hc

/-- An accepted section adds what its commands make of its draft. What holds of the draft, and what
every accepted command keeps, holds of the workpiece at the end. -/
theorem apply_accepted {s : BookSection} {limits : Script.Limits} {d : PipelineDraft}
    {J : Workpiece → Prop} (base : ∀ task, s.openDraft = .ok task → J ⟨task, d⟩)
    (step : ∀ c, s.Gives c → ∀ w, J w → (c.applyToTask w).refusal = none → J (c.applyToTask w).draft)
    (hok : (s.apply limits d).refusal = none) :
    ∃ w, J w ∧ (s.addTask limits w).refusal = none ∧
      (s.apply limits d).draft = (s.addTask limits w).draft := by
  simp only [apply] at hok ⊢
  split at hok
  · simp [Attempt.refused] at hok
  · rename_i task htask
    split at hok
    · simp at hok
    · rename_i cs notices hcs
      obtain ⟨hrun, hadd⟩ := (Attempt.andThen_accepted _ _).mp hok
      rw [Attempt.andThen_draft hrun]
      refine ⟨_, Attempt.each_keeps ?_ (base task htask) hrun, hadd, rfl⟩
      intro c hc w hw haccepted
      obtain ⟨hcommand, hdraft⟩ := Workpiece.applyCommand_accepted haccepted
      rw [hdraft]
      exact step c.command (gives_of_mem (congrArg Prod.fst hcs) hc) w hw hcommand

theorem openDraft_ok {s : BookSection} {task : TaskDraft} (h : s.openDraft = .ok task) :
    task = { s.draft with result := task.result } ∧
      ∀ name, task.result = some name → ∃ raw, s.result = some raw ∧ Name.readReference raw = .ok name := by
  simp only [openDraft] at h
  split at h
  · cases h
    exact ⟨rfl, fun name hname => by cases hname⟩
  · rename_i raw hraw
    split at h
    · cases h
    · rename_i name hname
      cases h
      exact ⟨rfl, fun other hother => ⟨raw, hraw, by cases hother; exact hname⟩⟩

theorem finishTask_ok {s : BookSection} {limits : Script.Limits} {state : String} {d : PipelineDraft}
    {t u : Task} (h : s.finishTask limits state d t = .ok u) :
    d.hasTask t.name = false ∧ ∃ v, s.settleLanguage state t = .ok v ∧
      v.neededNames limits = .ok u.dependencies ∧ u = { v with dependencies := u.dependencies } := by
  simp only [finishTask] at h
  split at h
  · cases h
  · rename_i hnew
    refine ⟨by simpa using hnew, ?_⟩
    simp only [bind, Except.bind] at h
    split at h
    · cases h
    · rename_i v hv
      split at h
      · cases h
      · rename_i names hnames
        cases h
        exact ⟨v, hv, hnames, rfl⟩

theorem settleLanguage_ok {s : BookSection} {state : String} {t u : Task}
    (h : s.settleLanguage state t = .ok u) : ∃ language, u = { t with language } := by
  simp only [settleLanguage] at h
  split at h
  · cases h; exact ⟨none, rfl⟩
  · split at h
    · cases h
    · cases h; exact ⟨_, rfl⟩

theorem addTask_accepted {s : BookSection} {limits : Script.Limits} {w : Workpiece}
    (h : (s.addTask limits w).refusal = none) :
    (w.task.build = none ∧ (s.addTask limits w).draft = w.pipeline) ∨
      ∃ t u, w.task.build = some t ∧ s.finishTask limits w.task.snapshot w.pipeline t = .ok u ∧
        ∃ e, Attempt.each (s.declareUsed w.task.snapshot) (u.dependencies ++ u.result.toList) w.pipeline = e ∧
          e.refusal = none ∧
          (s.addTask limits w).draft = { e.draft with tasks := e.draft.tasks ++ [u] } := by
  simp only [addTask] at h ⊢
  split at h
  · rename_i hbuild
    exact Or.inl ⟨hbuild, rfl⟩
  · rename_i t hbuild
    split at h
    · simp [Attempt.refused] at h
    · rename_i u hu
      obtain ⟨hrun, -⟩ := (Attempt.andThen_accepted _ _).mp h
      refine Or.inr ⟨t, u, hbuild, hu, _, rfl, hrun, ?_⟩
      rw [Attempt.andThen_draft hrun]
      rfl

end BookSection

theorem Book.assemble_keeps {I : PipelineDraft → Prop} {book : Book} {limits : Script.Limits}
    (base : I (.ofBook book))
    (head : ∀ line ∈ book.head.commandLines, ∀ c, Registry.builtIn.read .head line = .ok c →
      ∀ d, I d → (c.applyToHead d).refusal = none → I (c.applyToHead d).draft)
    (sections : ∀ s ∈ book.sections, ∀ d, I d → (s.apply limits d).refusal = none →
      I (s.apply limits d).draft)
    (hok : (book.assemble limits).refusal = none) : I (book.assemble limits).draft := by
  obtain ⟨hhead, hrest⟩ := (Attempt.andThen_accepted _ _).mp hok
  rw [assemble, Attempt.andThen_draft hhead]
  exact Attempt.each_keeps sections (PipelineDraft.applyHead_keeps head base hhead) hrest

theorem Options.check_ok {options : Options} {p q : Pipeline} (h : options.check p = .ok q) :
    q = p ∧ (options.validation = true → p.validate = .ok ()) := by
  simp only [check] at h
  split at h
  · split at h
    · cases h
    · rename_i hvalid
      cases h
      exact ⟨rfl, fun _ => hvalid⟩
  · rename_i hoff
    cases h
    exact ⟨rfl, fun hon => absurd hon hoff⟩

theorem exists_of_isOk {ε α : Type} {r : Except ε α} (h : r.isOk = true) : ∃ a, r = .ok a := by
  cases r with
  | error e => cases h
  | ok a => exact ⟨a, rfl⟩

theorem eq_ok_of_toOption {ε α : Type} {r : Except ε α} {a : α} (h : r.toOption = some a) : r = .ok a := by
  cases r with
  | error e => cases h
  | ok b => exact congrArg Except.ok (Option.some.inj h)

/-- A book compiles if it can be read, nothing in it is refused, and the pipeline passes the checks
that are asked for. -/
theorem compile_ok {options : Options} {source : String} {p : Pipeline}
    (h : (compile options source).result = .ok p) :
    ∃ book, Book.read source = .ok book ∧ (book.assemble options.limits).refusal = none ∧
      p = (book.assemble options.limits).draft.finish options ∧
      (options.validation = true → p.validate = .ok ()) := by
  unfold compile at h
  split at h
  · cases h
  · rename_i book hbook
    unfold Book.compile at h
    dsimp only at h
    split at h
    · cases h
    · rename_i hok
      obtain ⟨rfl, hvalid⟩ := Options.check_ok h
      exact ⟨book, hbook, hok, rfl, hvalid⟩

theorem Options.check_eq_ok {options : Options} {p q : Pipeline} :
    options.check p = .ok q ↔ q = p ∧ (options.validation = true → p.validate = .ok ()) := by
  refine ⟨check_ok, ?_⟩
  rintro ⟨rfl, hvalid⟩
  rw [check]
  split
  · rename_i hon
    rw [hvalid hon]
  · rfl

theorem compile_of_accepted {options : Options} {source : String} {book : Book} (hread : Book.read source = .ok book)
    (hok : (book.assemble options.limits).refusal = none)
    (hvalid : ((book.assemble options.limits).draft.finish options).validate = .ok ()) :
    (compile options source).result = .ok ((book.assemble options.limits).draft.finish options) := by
  unfold compile
  rw [hread]
  dsimp only [Book.compile]
  rw [hok]
  exact Options.check_eq_ok.mpr ⟨rfl, fun _ => hvalid⟩

end BookCompiler
