import BookCompiler.Proofs.Compile.Rebuild
import BookCompiler.Proofs.Compile.Redeclared

namespace BookCompiler

open Attempt

def useIn (ps : List ParameterDraft) (name : String) : List ParameterDraft :=
  if name ∈ ps.map ParameterDraft.name then ps else ps ++ [{ name := name }]

namespace PipelineDraft

theorem parameters_use (d : PipelineDraft) (name : String) : (d.use name).parameters = useIn d.parameters name := by
  rw [use, useIn]
  split
  · rename_i h
    exact (if_pos h).symm
  · rename_i h
    exact (if_neg h).symm

theorem parameters_foldl_use (names : List String) (d : PipelineDraft) :
    (names.foldl use d).parameters = names.foldl useIn d.parameters := by
  induction names generalizing d with
  | nil => rfl
  | cons name names ih => rw [List.foldl_cons, ih, parameters_use, List.foldl_cons]

theorem parameters_restoreTask (d : PipelineDraft) (t : Task) :
    (d.restoreTask t).parameters = t.usedNames.foldl useIn d.parameters := by
  rw [← (d.sameGraph_greet t.persona).parameters]
  exact parameters_foldl_use t.usedNames (d.greet t.persona)

theorem parameters_foldl_restoreTask (ts : List Task) (d : PipelineDraft) :
    (ts.foldl restoreTask d).parameters = (ts.flatMap Task.usedNames).foldl useIn d.parameters := by
  induction ts generalizing d with
  | nil => rfl
  | cons t ts ih => rw [List.foldl_cons, ih, parameters_restoreTask, List.flatMap_cons, List.foldl_append]

theorem tasks_foldl_restoreTask (ts : List Task) (d : PipelineDraft) :
    (ts.foldl restoreTask d).tasks = d.tasks ++ ts := by
  induction ts generalizing d with
  | nil => exact (List.append_nil d.tasks).symm
  | cons t ts ih =>
      rw [List.foldl_cons, ih]
      exact (List.append_cons d.tasks t ts).symm

theorem formfactor_foldl_restoreTask (ts : List Task) (d : PipelineDraft) :
    (ts.foldl restoreTask d).formfactor = d.formfactor := by
  induction ts generalizing d with
  | nil => rfl
  | cons t ts ih =>
      rw [List.foldl_cons, ih]
      change (t.usedNames.foldl use (d.greet t.persona)).formfactor = d.formfactor
      rw [foldl_use_frame]
      exact (d.sameGraph_greet t.persona).formfactor

theorem personas_registerPersona_ne_nil {ε : Type} (d : PipelineDraft) (name : String) (description : Option String) :
    (d.registerPersona name description : Attempt ε PipelineDraft).draft.personas ≠ [] := by
  have hreplace {α : Type} {f : α → Bool} {a : α} {l : List α} (h : l ≠ []) : replaceFirst f a l ≠ [] := by
    cases l with
    | nil => exact absurd rfl h
    | cons b l =>
        rw [replaceFirst]
        split <;> exact List.cons_ne_nil _ _
  simp only [registerPersona]
  split
  · simp [done]
  · rename_i existing hfound
    have hne : d.personas ≠ [] := List.ne_nil_of_mem (List.mem_of_find?_eq_some hfound)
    split
    · exact hne
    · exact hreplace hne
    · split
      · exact hne
      · exact hreplace hne

theorem personas_namePersonas_ne_nil {personas : List Persona} (h : personas ≠ []) {d : PipelineDraft} :
    (d.namePersonas personas).personas ≠ [] := by
  rw [← List.dropLast_append_getLast h, namePersonas, List.foldl_append]
  exact personas_registerPersona_ne_nil _ _ _

theorem personas_foldl_addKnowledge (contents : List String) (d : PipelineDraft) :
    (contents.foldl addKnowledge d).personas = d.personas := by
  induction contents generalizing d with
  | nil => rfl
  | cons content contents ih =>
      rw [List.foldl_cons, ih, addKnowledge]
      split <;> rfl

theorem personas_foldl_restoreTask_ne_nil {ts : List Task} {d : PipelineDraft} (h : d.personas ≠ []) :
    (ts.foldl restoreTask d).personas ≠ [] := by
  induction ts generalizing d with
  | nil => exact h
  | cons t ts ih =>
      apply ih
      change (t.usedNames.foldl use (d.greet t.persona)).personas ≠ []
      rw [foldl_use_frame]
      cases t.persona with
      | none => exact h
      | some name => exact personas_registerPersona_ne_nil d name none

end PipelineDraft

section Used

variable {ps : List ParameterDraft} {names : List String}

theorem map_name_useIn (ps : List ParameterDraft) (name : String) :
    (useIn ps name).map ParameterDraft.name =
      if name ∈ ps.map ParameterDraft.name then ps.map ParameterDraft.name else ps.map ParameterDraft.name ++ [name] := by
  rw [useIn]
  split <;> simp

theorem nodup_foldl_useIn (h : (ps.map ParameterDraft.name).Nodup) :
    ((names.foldl useIn ps).map ParameterDraft.name).Nodup := by
  induction names generalizing ps with
  | nil => exact h
  | cons name names ih =>
      apply ih
      rw [map_name_useIn]
      split
      · exact h
      · rename_i hnew
        exact List.nodup_append.mpr ⟨h, List.nodup_singleton name, fun a ha b hb hab =>
          hnew (List.mem_singleton.mp hb ▸ hab ▸ ha)⟩

theorem mem_foldl_useIn {y : ParameterDraft} :
    y ∈ names.foldl useIn ps ↔
      y ∈ ps ∨ ∃ name ∈ names, name ∉ ps.map ParameterDraft.name ∧ y = { name } := by
  induction names generalizing ps with
  | nil => simp
  | cons name names ih =>
      rw [List.foldl_cons, ih, map_name_useIn, useIn]
      by_cases hmem : name ∈ ps.map ParameterDraft.name
      · simp only [if_pos hmem]
        constructor
        · rintro (hy | ⟨n, hn, hnew, rfl⟩)
          · exact Or.inl hy
          · exact Or.inr ⟨n, List.mem_cons_of_mem name hn, hnew, rfl⟩
        · rintro (hy | ⟨n, hn, hnew, rfl⟩)
          · exact Or.inl hy
          · rcases List.mem_cons.mp hn with rfl | hn
            · exact absurd hmem hnew
            · exact Or.inr ⟨n, hn, hnew, rfl⟩
      · simp only [if_neg hmem]
        constructor
        · rintro (hy | ⟨n, hn, hnew, rfl⟩)
          · rcases List.mem_append.mp hy with hy | hy
            · exact Or.inl hy
            · exact Or.inr ⟨name, List.mem_cons_self, hmem, List.mem_singleton.mp hy⟩
          · exact Or.inr ⟨n, List.mem_cons_of_mem name hn, fun h => hnew (List.mem_append_left _ h), rfl⟩
        · rintro (hy | ⟨n, hn, hnew, rfl⟩)
          · exact Or.inl (List.mem_append_left _ hy)
          · by_cases hname : n = name
            · exact Or.inl (List.mem_append_right _ (List.mem_singleton.mpr (by rw [hname])))
            · refine Or.inr ⟨n, (List.mem_cons.mp hn).resolve_left hname, ?_, rfl⟩
              rw [List.mem_append, List.mem_singleton]
              exact not_or.mpr ⟨hnew, hname⟩

end Used

/-- The examples of one parameter among those of several. -/
def valuesFor (name : String) (samples : List (String × String)) : List String :=
  (samples.filter fun x => x.1 = name).map Prod.snd

theorem parameters_foldl_addExample (samples : List (String × String)) (d : PipelineDraft) :
    (samples.foldl (fun d x => d.addExample x.1 x.2) d).parameters =
      d.parameters.map fun y => { y with examples := y.examples ++ valuesFor y.name samples } := by
  induction samples generalizing d with
  | nil => simp [valuesFor]
  | cons x samples ih =>
      rw [List.foldl_cons, ih, PipelineDraft.addExample, List.map_map]
      apply List.map_congr_left
      intro y _
      by_cases hname : y.name = x.1
      · simp [valuesFor, hname]
      · have hname' : ¬ x.1 = y.name := fun e => hname e.symm
        simp [valuesFor, hname, hname']

theorem valuesFor_append (name : String) (xs ys : List (String × String)) :
    valuesFor name (xs ++ ys) = valuesFor name xs ++ valuesFor name ys := by
  simp [valuesFor]

theorem valuesFor_map (name other : String) (values : List String) :
    valuesFor name (values.map fun value => (other, value)) = if other = name then values else [] := by
  induction values with
  | nil => simp [valuesFor]
  | cons value values ih =>
      rw [List.map_cons, ← List.singleton_append, valuesFor_append, ih]
      by_cases h : other = name <;> simp [valuesFor, h]

theorem valuesFor_flatMap {ps : List Parameter} (hnodup : (ps.map Parameter.name).Nodup) {q : Parameter}
    (hq : q ∈ ps) :
    valuesFor q.name (ps.flatMap fun r => r.examples.map fun value => (r.name, value)) = q.examples := by
  have hother {rs : List Parameter} (hrs : q.name ∉ rs.map Parameter.name) :
      valuesFor q.name (rs.flatMap fun r => r.examples.map fun value => (r.name, value)) = [] := by
    induction rs with
    | nil => rfl
    | cons r rs ih =>
        obtain ⟨hr, hrs⟩ := not_or.mp (fun h => hrs (List.mem_cons.mpr h))
        rw [List.flatMap_cons, valuesFor_append, valuesFor_map, if_neg fun e => hr e.symm, ih hrs]
        rfl
  induction ps with
  | nil => cases hq
  | cons r rs ih =>
      obtain ⟨hr, hrest⟩ := List.nodup_cons.mp hnodup
      rw [List.flatMap_cons, valuesFor_append, valuesFor_map]
      rcases List.mem_cons.mp hq with rfl | hq
      · rw [if_pos rfl, hother hr, List.append_nil]
      · have hne : r.name ≠ q.name := fun e => hr (e ▸ List.mem_map_of_mem hq)
        rw [if_neg hne, List.nil_append, ih hrest hq]

namespace Parameter

theorem sketch_of_not_declared {q : Parameter} (h : q.isDeclared = false) : q.sketch = { name := q.name } := by
  obtain ⟨name, description, role, examples⟩ := q
  have hrole : role = .intermediate := by
    by_contra hne
    simp [isDeclared, hne] at h
  have hdescription : description = none := by
    simpa [isDeclared, hrole] using h
  simp [sketch, hrole, hdescription]

end Parameter

namespace Pipeline

def samples (p : Pipeline) : List (String × String) :=
  p.parameters.flatMap fun q => q.examples.map fun value => (q.name, value)

/-- The draft that the head, the tasks and the knowledge of a written pipeline give. -/
def restore (p : Pipeline) (d : PipelineDraft) : PipelineDraft :=
  p.longKnowledge.foldl PipelineDraft.addKnowledge (p.tasks.foldl PipelineDraft.restoreTask (p.restoreHead d))

def restoreAll (p : Pipeline) (d : PipelineDraft) : PipelineDraft :=
  p.samples.foldl (fun d x => d.addExample x.1 x.2) (p.restore d)

/-- A parameter that stands somewhere in the written book: it is declared, or a task uses it. -/
def Mentions (p : Pipeline) (q : Parameter) : Prop :=
  q.isDeclared = true ∨ ∃ t ∈ p.tasks, q.name ∈ t.usedNames

instance (p : Pipeline) (q : Parameter) : Decidable (p.Mentions q) := by
  unfold Mentions
  infer_instance

variable {p : Pipeline}

theorem sameGraph_restore (p : Pipeline) (d : PipelineDraft) :
    PipelineDraft.SameGraph (p.tasks.foldl PipelineDraft.restoreTask (p.restoreHead d)) (p.restore d) :=
  PipelineDraft.sameGraph_foldl PipelineDraft.sameGraph_addKnowledge _ _

theorem restoreHead_graph (p : Pipeline) (d : PipelineDraft) :
    (p.restoreHead d).parameters = p.declared.map Parameter.sketch ∧ (p.restoreHead d).tasks = d.tasks ∧
      (p.restoreHead d).formfactor = p.formfactor.filter (· ≠ Formfactor.generic.name) := by
  have hknowledge := PipelineDraft.sameGraph_foldl PipelineDraft.sameGraph_addKnowledge p.shortKnowledge
  have hpersonas := PipelineDraft.sameGraph_namePersonas (p.personas.map Persona.opening)
  exact ⟨(hknowledge _).parameters.trans (hpersonas _).parameters, (hknowledge _).tasks.trans (hpersonas _).tasks,
    (hknowledge _).formfactor.trans (hpersonas _).formfactor⟩

theorem parameters_restore (p : Pipeline) (d : PipelineDraft) :
    (p.restore d).parameters = (p.tasks.flatMap Task.usedNames).foldl useIn (p.declared.map Parameter.sketch) := by
  rw [(p.sameGraph_restore d).parameters, PipelineDraft.parameters_foldl_restoreTask, (p.restoreHead_graph d).1]

theorem tasks_restore (p : Pipeline) (d : PipelineDraft) : (p.restore d).tasks = d.tasks ++ p.tasks := by
  rw [(p.sameGraph_restore d).tasks, PipelineDraft.tasks_foldl_restoreTask, (p.restoreHead_graph d).2.1]

theorem formfactor_restore (p : Pipeline) (d : PipelineDraft) :
    (p.restore d).formfactor = p.formfactor.filter (· ≠ Formfactor.generic.name) := by
  rw [(p.sameGraph_restore d).formfactor, PipelineDraft.formfactor_foldl_restoreTask, (p.restoreHead_graph d).2.2]

theorem eq_of_name_eq (hnodup : (p.parameters.map Parameter.name).Nodup) {q r : Parameter} (hq : q ∈ p.parameters)
    (hr : r ∈ p.parameters) (h : q.name = r.name) : q = r :=
  List.inj_on_of_nodup_map hnodup hq hr h

theorem mem_parameters_restore {limits : Script.Limits} (hclosed : p.Closed limits) (d : PipelineDraft)
    {y : ParameterDraft} :
    y ∈ (p.restore d).parameters ↔ ∃ q ∈ p.parameters, p.Mentions q ∧ y = q.sketch := by
  have hnames : (p.declared.map Parameter.sketch).map ParameterDraft.name = p.declared.map Parameter.name := by
    rw [List.map_map]
    rfl
  rw [parameters_restore, mem_foldl_useIn, hnames]
  constructor
  · rintro (hy | ⟨n, hn, hnew, rfl⟩)
    · obtain ⟨q, hq, rfl⟩ := List.mem_map.mp hy
      obtain ⟨hq, hdeclared⟩ := List.mem_filter.mp hq
      exact ⟨q, hq, Or.inl hdeclared, rfl⟩
    · obtain ⟨t, ht, hn⟩ := List.mem_flatMap.mp hn
      obtain ⟨q, hq, rfl⟩ := List.mem_map.mp (hclosed.used_declared t ht n hn)
      have hundeclared : q.isDeclared = false := by
        rw [Bool.eq_false_iff]
        exact fun h => hnew (List.mem_map_of_mem (List.mem_filter.mpr ⟨hq, h⟩))
      exact ⟨q, hq, Or.inr ⟨t, ht, hn⟩, (Parameter.sketch_of_not_declared hundeclared).symm⟩
  · rintro ⟨q, hq, hmentions, rfl⟩
    cases hdeclared : q.isDeclared with
    | true => exact Or.inl (List.mem_map_of_mem (List.mem_filter.mpr ⟨hq, hdeclared⟩))
    | false =>
        obtain ⟨t, ht, hn⟩ := hmentions.resolve_left (by simp [hdeclared])
        refine Or.inr ⟨q.name, List.mem_flatMap.mpr ⟨t, ht, hn⟩, ?_, Parameter.sketch_of_not_declared hdeclared⟩
        intro hmem
        obtain ⟨r, hr, hname⟩ := List.mem_map.mp hmem
        obtain ⟨hr, hdeclared'⟩ := List.mem_filter.mp hr
        rw [eq_of_name_eq hclosed.parameters_distinct hr hq hname, hdeclared] at hdeclared'
        cases hdeclared'

theorem nodup_names_restore (hnodup : (p.parameters.map Parameter.name).Nodup) (d : PipelineDraft) :
    (p.restore d).names.Nodup := by
  rw [PipelineDraft.names, parameters_restore]
  apply nodup_foldl_useIn
  rw [List.map_map]
  exact hnodup.sublist (List.filter_sublist.map Parameter.name)

theorem mem_names_restore {limits : Script.Limits} (hclosed : p.Closed limits) (d : PipelineDraft) {q : Parameter}
    (hq : q ∈ p.parameters) : q.name ∈ (p.restore d).names ↔ p.Mentions q := by
  constructor
  · intro h
    obtain ⟨y, hy, hname⟩ := List.mem_map.mp h
    obtain ⟨r, hr, hmentions, rfl⟩ := (mem_parameters_restore hclosed d).mp hy
    rwa [← eq_of_name_eq hclosed.parameters_distinct hr hq hname]
  · intro h
    exact List.mem_map_of_mem (f := ParameterDraft.name) ((mem_parameters_restore hclosed d).mpr ⟨q, hq, h, rfl⟩)

theorem valuesFor_samples (hnodup : (p.parameters.map Parameter.name).Nodup) {q : Parameter}
    (hq : q ∈ p.parameters) : valuesFor q.name p.samples = q.examples :=
  valuesFor_flatMap hnodup hq

theorem mem_parameters_restoreAll {limits : Script.Limits} (hclosed : p.Closed limits) (d : PipelineDraft)
    {y : ParameterDraft} :
    y ∈ (p.restoreAll d).parameters ↔ ∃ q ∈ p.parameters, p.Mentions q ∧ y = q.toDraft := by
  have htoDraft (q : Parameter) (hq : q ∈ p.parameters) :
      { q.sketch with examples := q.sketch.examples ++ valuesFor q.sketch.name p.samples } = q.toDraft := by
    rw [show q.sketch.name = q.name from rfl, valuesFor_samples hclosed.parameters_distinct hq]
    rfl
  rw [restoreAll, parameters_foldl_addExample, List.mem_map]
  constructor
  · rintro ⟨z, hz, rfl⟩
    obtain ⟨q, hq, hmentions, rfl⟩ := (mem_parameters_restore hclosed d).mp hz
    exact ⟨q, hq, hmentions, htoDraft q hq⟩
  · rintro ⟨q, hq, hmentions, rfl⟩
    exact ⟨q.sketch, (mem_parameters_restore hclosed d).mpr ⟨q, hq, hmentions, rfl⟩, htoDraft q hq⟩

theorem foldl_addExample_frame (samples : List (String × String)) (d : PipelineDraft) :
    (samples.foldl (fun d x => d.addExample x.1 x.2) d).tasks = d.tasks ∧
      (samples.foldl (fun d x => d.addExample x.1 x.2) d).formfactor = d.formfactor ∧
      (samples.foldl (fun d x => d.addExample x.1 x.2) d).personas = d.personas ∧
      (samples.foldl (fun d x => d.addExample x.1 x.2) d).names = d.names := by
  induction samples generalizing d with
  | nil => exact ⟨rfl, rfl, rfl, rfl⟩
  | cons x samples ih =>
      obtain ⟨htasks, hformfactor, hpersonas, hnames⟩ := ih (d.addExample x.1 x.2)
      exact ⟨htasks, hformfactor, hpersonas, hnames.trans (d.names_addExample x.1 x.2)⟩

theorem roleOf_restoreAll {limits : Script.Limits} (hclosed : p.Closed limits) (hroles : p.RolesSettled)
    (d : PipelineDraft) {q : Parameter} (hq : q ∈ p.parameters) : (p.restoreAll d).roleOf q.toDraft = q.role := by
  refine hroles.roleOf (fun r hr hrole => ?_) (fun t ht => ?_) hq rfl rfl
  · have hmentions : p.Mentions r := Or.inl (by simp [Parameter.isDeclared, hrole])
    refine ⟨r.toDraft, (mem_parameters_restoreAll hclosed d).mpr ⟨r, hr, hmentions, rfl⟩, ?_⟩
    simp [Parameter.toDraft, Parameter.sketch, hrole]
  · rw [restoreAll, (foldl_addExample_frame p.samples _).1, tasks_restore]
    exact List.mem_append_right _ ht

theorem nodup_names_restoreAll {limits : Script.Limits} (hclosed : p.Closed limits) (d : PipelineDraft) :
    (p.restoreAll d).names.Nodup := by
  rw [restoreAll, (foldl_addExample_frame p.samples _).2.2.2]
  exact nodup_names_restore hclosed.parameters_distinct d

/-- The rebuilt parameters are those that the written pipeline mentions, just as they were. -/
theorem mem_parameters_build {limits : Script.Limits} (hclosed : p.Closed limits) (hroles : p.RolesSettled)
    (d : PipelineDraft) {x : Parameter} :
    x ∈ (p.restoreAll d).resolveRoles.build.parameters ↔ x ∈ p.parameters ∧ p.Mentions x := by
  have hbuild (q : Parameter) (hq : q ∈ p.parameters) :
      ParameterDraft.build { q.toDraft with role := some ((p.restoreAll d).roleOf q.toDraft) } = q := by
    rw [roleOf_restoreAll hclosed hroles d hq]
    rfl
  simp only [PipelineDraft.resolveRoles_eq (nodup_names_restoreAll hclosed d), PipelineDraft.build, List.map_map,
    List.mem_map, Function.comp]
  constructor
  · rintro ⟨y, hy, rfl⟩
    obtain ⟨q, hq, hmentions, rfl⟩ := (mem_parameters_restoreAll hclosed d).mp hy
    rw [hbuild q hq]
    exact ⟨hq, hmentions⟩
  · rintro ⟨hx, hmentions⟩
    exact ⟨x.toDraft, (mem_parameters_restoreAll hclosed d).mpr ⟨x, hx, hmentions, rfl⟩, hbuild x hx⟩

theorem perm_parameters_build {limits : Script.Limits} (hclosed : p.Closed limits) (hroles : p.RolesSettled)
    (d : PipelineDraft) (hall : ∀ q ∈ p.parameters, p.Mentions q) :
    (p.restoreAll d).resolveRoles.build.parameters.Perm p.parameters := by
  have hnodup := nodup_names_restoreAll hclosed d
  rw [← PipelineDraft.names_resolveRoles] at hnodup
  rw [List.perm_ext_iff_of_nodup hnodup.of_map hclosed.parameters_distinct.of_map]
  intro x
  rw [mem_parameters_build hclosed hroles]
  exact and_iff_left_of_imp (hall x)

theorem personas_restoreAll_ne_nil (hp : p.personas ≠ []) (d : PipelineDraft) : (p.restoreAll d).personas ≠ [] := by
  rw [restoreAll, (foldl_addExample_frame p.samples _).2.2.1, restore, PipelineDraft.personas_foldl_addKnowledge]
  apply PipelineDraft.personas_foldl_restoreTask_ne_nil
  change (p.shortKnowledge.foldl PipelineDraft.addKnowledge _).personas ≠ []
  rw [PipelineDraft.personas_foldl_addKnowledge]
  exact PipelineDraft.personas_namePersonas_ne_nil (by simpa using hp)

theorem personas_restoreAll_eq (hp : p.personas = []) (htasks : p.tasks = []) (d : PipelineDraft) :
    (p.restoreAll d).personas = d.personas := by
  rw [restoreAll, (foldl_addExample_frame p.samples _).2.2.1, restore, PipelineDraft.personas_foldl_addKnowledge,
    htasks, List.foldl_nil]
  change (p.shortKnowledge.foldl PipelineDraft.addKnowledge _).personas = _
  rw [PipelineDraft.personas_foldl_addKnowledge, hp]
  rfl

end Pipeline

end BookCompiler
