import BookCompiler.Proofs.Compile.Finish
import BookCompiler.Proofs.Script.Words

namespace BookCompiler

section Placeholders

open Markdown

theorem placeholderAt?_spelled {name : String} {s : List Char} (h : placeholderAt? s = some name) :
    Name.Leads name ∧ ∀ c ∈ name.toList, Name.isWordChar c = true := by
  rw [placeholderAt?] at h
  split at h
  · rename_i c rest tail hbraced
    split at h
    · cases h
    · rename_i hdigit
      cases h
      rw [String.toList_ofList]
      refine ⟨⟨c, rest, String.toList_ofList, by simpa using hdigit⟩, ?_⟩
      unfold bracedName? at hbraced
      split at hbraced
      · rename_i s
        split at hbraced
        · rename_i htake _
          cases hbraced
          rw [← htake]
          exact fun c hc => List.mem_takeWhile_imp hc
        · cases hbraced
      · cases hbraced
  · cases h

theorem mem_placeholders {name text : String} (h : name ∈ placeholders text) :
    Name.Leads name ∧ ∀ c ∈ name.toList, Name.isWordChar c = true := by
  have hmem : name ∈ placeholdersIn text.toList := (Name.mem_sorted _ _).mp h
  generalize text.toList = s at hmem
  induction s with
  | nil => cases hmem
  | cons c s ih =>
      rw [placeholdersIn, List.mem_append] at hmem
      rcases hmem with hmem | hmem
      · exact placeholderAt?_spelled (Option.mem_toList.mp hmem)
      · exact ih hmem

end Placeholders

namespace Task

variable {t : Task} {limits : Script.Limits} {names : List String} {name : String}

/-- A task whose content is a script that reads a name without declaring it. -/
def ScriptReads (limits : Script.Limits) (t : Task) (name : String) : Prop :=
  t.type = .script ∧ ∃ names, t.contentNames limits = .ok names ∧ name ∈ names

theorem Made.joker (h : t.Made) (hname : name ∈ t.jokers) : Name.Valid name := by
  have hc : Command.joker name ∈ t.commands := by
    rw [Task.commands_eq]
    simp [hname]
  exact h.commands _ hc

theorem Made.loop (h : t.Made) {loop : Foreach} (hloop : loop ∈ t.foreach) : loop.WellFormed := by
  have hc : Command.foreach loop ∈ t.commands := by
    rw [Task.commands_eq, hloop]
    simp
  exact h.commands _ hc

/-- Where the needed names come from: the texts, the content and the jokers of a task, without the parts that
it runs over, and what it runs over. -/
theorem mem_neededNames (h : t.neededNames limits = .ok names) :
    ∃ content, t.contentNames limits = .ok content ∧ ∀ name, name ∈ names ↔ isReserved name = false ∧
      ((∃ loop ∈ t.foreach, name = loop.parameter) ∨ (∀ loop ∈ t.foreach, name ∉ loop.inputs) ∧
        ((∃ text ∈ t.title :: (t.description.toList ++ t.prepared.toList), name ∈ placeholders text) ∨
          name ∈ content ∨ name ∈ t.jokers)) := by
  obtain ⟨content, hcontent, h⟩ := bind_ok h
  refine ⟨content, hcontent, fun name => ?_⟩
  cases h
  have hsource : name ∈ Name.sorted (placeholders t.title ++ (t.description.map placeholders).getD [] ++ content ++
      (t.prepared.map placeholders).getD [] ++ t.jokers) ↔
      (∃ text ∈ t.title :: (t.description.toList ++ t.prepared.toList), name ∈ placeholders text) ∨
        name ∈ content ∨ name ∈ t.jokers := by
    rw [Name.mem_sorted]
    cases t.description <;> cases t.prepared <;> simp <;> tauto
  rw [List.mem_filter, Bool.not_eq_true', and_comm]
  refine and_congr_right fun _ => ?_
  cases t.foreach with
  | none => simpa [withLoop] using hsource
  | some loop =>
      rw [withLoop, Name.mem_insert, List.mem_filter, hsource]
      simp [and_comm]

theorem Made.neededNames_valid (ht : t.Made) (h : t.neededNames limits = .ok names) (hname : name ∈ names) :
    Name.Valid name ∨ Name.Leads name ∧ t.ScriptReads limits name := by
  obtain ⟨content, hcontent, hmem⟩ := mem_neededNames h
  obtain ⟨hfree, ⟨loop, hloop, rfl⟩ | ⟨-, ⟨text, -, hname⟩ | hname | hname⟩⟩ := (hmem name).mp hname
  · exact Or.inl (ht.loop hloop).parameter
  · obtain ⟨hlead, hword⟩ := mem_placeholders hname
    exact Or.inl (Name.valid_iff.mpr ⟨hlead, hword, hfree⟩)
  · by_cases hscript : t.type = .script
    · refine Or.inr ⟨?_, hscript, content, hcontent, hname⟩
      unfold contentNames at hcontent
      split at hcontent
      · cases hcontent
      · exact Script.freeNames_lead limits _ _ content hcontent name hname
      · cases hcontent
        exact (mem_placeholders hname).1
    · have hplaceholders : content = placeholders t.content := by
        unfold contentNames at hcontent
        split at hcontent
        · rename_i htype _
          exact absurd htype hscript
        · rename_i htype _
          exact absurd htype hscript
        · cases hcontent
          rfl
      rw [hplaceholders] at hname
      obtain ⟨hlead, hword⟩ := mem_placeholders hname
      exact Or.inl (Name.valid_iff.mpr ⟨hlead, hword, hfree⟩)
  · exact Or.inl (ht.joker hname)

theorem Made.mem_neededNames_of_scriptReads (ht : t.Made) (h : t.neededNames limits = .ok names)
    (hread : t.ScriptReads limits name) (hstrange : ∃ c ∈ name.toList, Name.isWordChar c = false) : name ∈ names := by
  obtain ⟨-, found, hfound, hname⟩ := hread
  obtain ⟨content, hcontent, hmem⟩ := mem_neededNames h
  rw [hcontent] at hfound
  cases hfound
  obtain ⟨c, hc, hword⟩ := hstrange
  have hinvalid : ¬ Name.Valid name := fun hvalid => hvalid.not_mem hword hc
  have hfree : isReserved name = false := by
    by_contra hreserved
    rw [Bool.not_eq_false, isReserved, List.contains_iff_mem] at hreserved
    have hwords : (reservedNames.all fun name => name.toList.all Name.isWordChar) = true := by decide +kernel
    rw [List.all_eq_true.mp (List.all_eq_true.mp hwords name hreserved) c hc] at hword
    cases hword
  refine (hmem name).mpr ⟨hfree, Or.inr ⟨fun loop hloop hinput => ?_, Or.inr (Or.inl hname)⟩⟩
  exact hinvalid ((ht.loop hloop).inputs name hinput)

end Task

/-- Every parameter of a draft has a name that may be declared, or some task mentions it. -/
def PipelineDraft.Accounted (d : PipelineDraft) : Prop :=
  ∀ name ∈ d.names, Name.Valid name ∨ ∃ t ∈ d.tasks, name ∈ t.usedNames

namespace PipelineDraft.Accounted

variable {d e : PipelineDraft}

theorem of_names (h : d.Accounted) (hnames : e.names = d.names) (htasks : e.tasks = d.tasks) : e.Accounted := by
  rw [Accounted, hnames, htasks]
  exact h

theorem define (h : d.Accounted) {q : ParameterDraft} (hq : Name.Valid q.name) : (d.defineParameter q).draft.Accounted := by
  rw [Accounted, names_defineParameter, defineParameter_tasks]
  split
  · exact h
  · intro name hname
    rcases List.mem_append.mp hname with hname | hname
    · exact h name hname
    · rw [List.mem_singleton.mp hname]
      exact Or.inl hq

theorem step {c : Command} (h : d.Accounted) (hc : c.WellFormed) (hstep : GraphStep c d e) : e.Accounted := by
  cases hstep with
  | frame _ hparameters htasks => exact h.of_names (by simp [names, hparameters]) htasks
  | declare q hq =>
      apply h.define
      cases c with
      | parameter declaration =>
          obtain ⟨role, -, rfl⟩ := Option.map_eq_some_iff.mp hq
          exact hc.valid
      | _ => cases hq
  | sample p name value => exact h.of_names (names_setParameter d _) rfl

end PipelineDraft.Accounted

namespace BookSection

variable {s : BookSection} {limits : Script.Limits}

theorem addTask_accounted {w : Workpiece} (hw : w.pipeline.Accounted) (hok : (s.addTask limits w).refusal = none) :
    (s.addTask limits w).draft.Accounted := by
  obtain ⟨-, hdraft⟩ | ⟨t, u, -, hu, e, rfl, hrun, hdraft⟩ := addTask_accepted hok
  · rw [hdraft]
    exact hw
  · have hkept := Attempt.each_keeps
      (I := fun d => (∀ name ∈ d.names, name ∈ w.pipeline.names ∨ name ∈ u.usedNames) ∧ d.tasks = w.pipeline.tasks)
      (fun used hused d hd _ => by
        rw [declareUsed_draft, PipelineDraft.names_defineParameter, PipelineDraft.defineParameter_tasks]
        refine ⟨fun name hname => ?_, hd.2⟩
        split at hname
        · exact hd.1 name hname
        · rcases List.mem_append.mp hname with hname | hname
          · exact hd.1 name hname
          · rw [List.mem_singleton.mp hname]
            exact Or.inr hused)
      ⟨fun name hname => Or.inl hname, rfl⟩ hrun
    rw [hdraft]
    intro name hname
    rcases hkept.1 name hname with hold | hused
    · refine (hw name hold).imp_right ?_
      rintro ⟨x, hx, hmention⟩
      exact ⟨x, List.mem_append_left _ (hkept.2 ▸ hx), hmention⟩
    · exact Or.inr ⟨u, List.mem_append_right _ List.mem_cons_self, hused⟩

theorem apply_accounted {d : PipelineDraft} (hd : d.Accounted) (hok : (s.apply limits d).refusal = none) :
    (s.apply limits d).draft.Accounted := by
  obtain ⟨w, hw, hadd, hdraft⟩ := apply_accepted (J := fun w => w.pipeline.Accounted) (fun _ _ => hd)
    (fun c hc w hw _ => hw.step (by
      rcases hc with rfl | ⟨line, -, hread⟩
      · trivial
      · exact Registry.read_wellFormed hread) (c.applyToTask_step w)) hok
  rw [hdraft]
  exact addTask_accounted hw hadd

end BookSection

theorem Book.assemble_accounted {book : Book} {limits : Script.Limits} (hok : (book.assemble limits).refusal = none) :
    (book.assemble limits).draft.Accounted :=
  assemble_keeps (by simp [PipelineDraft.Accounted, PipelineDraft.ofBook, PipelineDraft.names])
    (fun _ _ c hc d hd _ => hd.step (Registry.read_wellFormed hc) (c.applyToHead_step d))
    (fun s _ d hd => BookSection.apply_accounted hd) hok

theorem PipelineDraft.Accounted.finish {d : PipelineDraft} (h : d.Accounted) (options : Options) :
    ∀ q ∈ (d.finish options).parameters,
      Name.Valid q.name ∨ ∃ t ∈ (d.finish options).tasks, q.name ∈ t.usedNames := by
  have hbuild : ∀ q ∈ d.resolveRoles.build.parameters,
      Name.Valid q.name ∨ ∃ t ∈ d.resolveRoles.build.tasks, q.name ∈ t.usedNames :=
    fun q hq => h q.name (d.names_resolveRoles ▸ List.mem_map_of_mem hq)
  rw [PipelineDraft.finish]
  split
  · obtain ⟨htasks, hparameters, -⟩ := d.resolveRoles.build.inferFormfactor_frame
    rcases d.resolveRoles.build.inferFormfactor.scaffoldChatbot_cases with hsame | ⟨persona, -, -, -, hchatbot⟩
    · dsimp only [Pipeline.applyAbstractions]
      rw [hsame, hparameters, htasks]
      exact hbuild
    · dsimp only [Pipeline.applyAbstractions]
      rw [hchatbot]
      have hvalid : ∀ q ∈ Formfactor.chatbot.parameters, Name.Valid q.name := by decide
      exact fun q hq => Or.inl (hvalid q hq)
  · exact hbuild

/-- A parameter of a compiled pipeline can be referred to by its name, bare or in braces, exactly when the name
has only letters, digits and underscores of ASCII. The other parameters are those that some script reads under
such a name. -/
theorem compile_parameterNames {options : Options} {source : String} {p : Pipeline}
    (h : (compile options source).result = .ok p) :
    (∀ q ∈ p.parameters,
      (Name.readReference q.name = .ok q.name ↔ ∀ c ∈ q.name.toList, Name.isWordChar c = true) ∧
      (Name.readReference (braced q.name) = .ok q.name ↔ ∀ c ∈ q.name.toList, Name.isWordChar c = true)) ∧
    ∀ name, (∃ c ∈ name.toList, Name.isWordChar c = false) →
      (name ∈ p.parameters.map Parameter.name ↔ ∃ t ∈ p.tasks, t.ScriptReads options.limits name) := by
  obtain ⟨book, hread, hok, rfl, -⟩ := compile_ok h
  have hclosed := (Book.assemble_closed hok).finish options
  have hmade := (Book.assemble_made hread hok).finish_tasks options
  have hnamed : ∀ q ∈ ((book.assemble options.limits).draft.finish options).parameters, Name.Valid q.name ∨
      Name.Leads q.name ∧ ∃ t ∈ ((book.assemble options.limits).draft.finish options).tasks,
        t.ScriptReads options.limits q.name := by
    intro q hq
    rcases (Book.assemble_accounted hok).finish options q hq with hvalid | ⟨t, ht, hused⟩
    · exact Or.inl hvalid
    · rcases List.mem_append.mp hused with hdependency | hresult
      · refine ((hmade t ht).1.neededNames_valid (hclosed.dependencies_found t ht) hdependency).imp_right ?_
        exact fun ⟨hlead, hscript⟩ => ⟨hlead, t, ht, hscript⟩
      · exact Or.inl ((hmade t ht).1.result _ (Option.mem_toList.mp hresult))
  refine ⟨fun q hq => ?_, fun name hstrange => ⟨fun hname => ?_, fun ⟨t, ht, hscript⟩ => ?_⟩⟩
  · have hlead : Name.Leads q.name := (hnamed q hq).elim (fun hvalid => (Name.valid_iff.mp hvalid).1) And.left
    have hvalid : Name.Valid q.name ↔ ∀ c ∈ q.name.toList, Name.isWordChar c = true := by
      simp [Name.valid_iff, hlead, hclosed.parameters_free q hq]
    rw [← hvalid]
    exact ⟨⟨Name.valid_of_readReference, Name.readReference_self⟩,
      ⟨Name.valid_of_readReference, Name.readReference_braced⟩⟩
  · obtain ⟨q, hq, rfl⟩ := List.mem_map.mp hname
    obtain ⟨c, hc, hword⟩ := hstrange
    rcases hnamed q hq with hvalid | ⟨-, hscript⟩
    · exact absurd hc (hvalid.not_mem hword)
    · exact hscript
  · apply hclosed.used_declared t ht
    apply List.mem_append_left
    exact (hmade t ht).1.mem_neededNames_of_scriptReads (hclosed.dependencies_found t ht) hscript hstrange

def dollarBook : String := "# T\n## A\n- SCRIPT\n```js\n$x+y\n```\n-> \x7bz\x7d"

theorem parameters_dollarBook :
    ∃ p, (compile {} dollarBook).result = .ok p ∧ p.parameters.map Parameter.name = ["$x", "y", "z"] := by
  have hnames : (compile {} dollarBook).result.toOption.map (·.parameters.map Parameter.name) = some ["$x", "y", "z"] := by
    decide +kernel
  obtain ⟨p, hp, hparameters⟩ := Option.map_eq_some_iff.mp hnames
  exact ⟨p, eq_ok_of_toOption hp, hparameters⟩

theorem compile_parameterNames_dollarBook : ∃ p, (compile {} dollarBook).result = .ok p ∧
    ∃ t ∈ p.tasks, t.ScriptReads ({} : Options).limits "$x" := by
  obtain ⟨p, hp, hparameters⟩ := parameters_dollarBook
  refine ⟨p, hp, ((compile_parameterNames hp).2 "$x" ⟨'$', by decide, by decide⟩).mp ?_⟩
  rw [hparameters]
  exact List.mem_cons_self

/-- A compiled pipeline may have a parameter that can not be declared. -/
theorem dollarBook_undeclarable : ∃ p, (compile {} dollarBook).result = .ok p ∧
    ∃ q ∈ p.parameters, ∀ name, Name.readReference q.name ≠ .ok name := by
  obtain ⟨p, hp, hparameters⟩ := parameters_dollarBook
  obtain ⟨q, hq, hname⟩ : ∃ q ∈ p.parameters, q.name = "$x" := by
    apply List.mem_map.mp
    rw [hparameters]
    exact List.mem_cons_self
  refine ⟨p, hp, q, hq, fun name hread => ?_⟩
  have hrefused : (Name.readReference "$x").isOk = false := by decide
  rw [← hname, hread] at hrefused
  cases hrefused

end BookCompiler
