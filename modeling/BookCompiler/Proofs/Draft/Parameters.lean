import BookCompiler.Draft.Pipeline
import Mathlib.Data.List.Nodup

namespace BookCompiler

theorem map_replaceFirst {α β : Type} (p : α → Bool) (new : α) (f : α → β)
    (h : ∀ a, p a = true → f a = f new) (l : List α) : (replaceFirst p new l).map f = l.map f := by
  induction l with
  | nil => rfl
  | cons a rest ih =>
      simp only [replaceFirst]
      split
      · rename_i ha
        simp [h a ha]
      · simp [ih]

theorem mem_replaceFirst {α : Type} {p : α → Bool} {new a : α} {l : List α} (h : a ∈ replaceFirst p new l) :
    a = new ∨ a ∈ l := by
  induction l with
  | nil => exact Or.inr h
  | cons b rest ih =>
      simp only [replaceFirst] at h
      split at h
      · rcases List.mem_cons.mp h with rfl | h
        · exact Or.inl rfl
        · exact Or.inr (List.mem_cons_of_mem b h)
      · rcases List.mem_cons.mp h with rfl | h
        · exact Or.inr (List.mem_cons_self ..)
        · exact (ih h).imp_right (List.mem_cons_of_mem b)

theorem replaceFirst_self {α : Type} {p : α → Bool} {a : α} {l : List α} (h : l.find? p = some a) :
    replaceFirst p a l = l := by
  induction l with
  | nil => rfl
  | cons b l ih =>
      rw [replaceFirst]
      cases hb : p b with
      | true =>
          rw [List.find?_cons_of_pos hb] at h
          rw [Option.some.inj h]
          rfl
      | false =>
          rw [List.find?_cons_of_neg (by simp [hb])] at h
          simp [ih h]

theorem ParameterDraft.merge_name (existing definition : ParameterDraft) :
    (existing.merge definition).draft.name = existing.name := by
  simp only [merge]
  split
  · rfl
  · split <;> rfl

namespace PipelineDraft

def names (d : PipelineDraft) : List String := d.parameters.map ParameterDraft.name

theorem names_setParameter (d : PipelineDraft) (new : ParameterDraft) :
    (d.setParameter new).names = d.names :=
  map_replaceFirst _ new ParameterDraft.name (fun _ h => by simpa using h) d.parameters

theorem parameter?_eq_none (d : PipelineDraft) (name : String) :
    d.parameter? name = none ↔ name ∉ d.names := by
  simp only [parameter?, names, List.find?_eq_none, List.mem_map, not_exists, not_and, beq_iff_eq]

theorem parameter?_eq_some {d : PipelineDraft} {name : String} {p : ParameterDraft}
    (h : d.parameter? name = some p) : p ∈ d.parameters ∧ p.name = name := by
  refine ⟨List.mem_of_find?_eq_some h, ?_⟩
  simpa using List.find?_some h

theorem setParameter_self {d : PipelineDraft} {name : String} {p : ParameterDraft} (h : d.parameter? name = some p) :
    d.setParameter p = d := by
  rw [setParameter, (parameter?_eq_some h).2]
  exact congrArg (fun parameters => { d with parameters }) (replaceFirst_self h)

theorem parameter?_eq_some_iff {d : PipelineDraft} (hnodup : d.names.Nodup) (q : ParameterDraft) :
    d.parameter? q.name = some q ↔ q ∈ d.parameters := by
  constructor
  · exact fun h => (parameter?_eq_some h).1
  · intro hq
    cases hfind : d.parameter? q.name with
    | none => exact absurd (List.mem_map_of_mem hq) ((d.parameter?_eq_none q.name).mp hfind)
    | some r =>
        obtain ⟨hr, hname⟩ := parameter?_eq_some hfind
        rw [List.inj_on_of_nodup_map hnodup hr hq hname]

theorem defineParameter_tasks (d : PipelineDraft) (q : ParameterDraft) :
    (d.defineParameter q).draft.tasks = d.tasks := by
  simp only [defineParameter]
  split
  · rfl
  · split <;> rfl

/-- A declaration adds at most its own name, and only a free one that was not there. -/
theorem names_defineParameter (d : PipelineDraft) (q : ParameterDraft) :
    (d.defineParameter q).draft.names =
      if isReserved q.name ∨ q.name ∈ d.names then d.names else d.names ++ [q.name] := by
  simp only [defineParameter]
  split
  · rename_i hr
    simp [Attempt.refused, hr]
  · rename_i hr
    split
    · rename_i hn
      have hmem := (d.parameter?_eq_none q.name).mp hn
      simp [Attempt.done, names, hr] at hmem ⊢
      exact hmem
    · rename_i existing he
      obtain ⟨hmem, hname⟩ := parameter?_eq_some he
      have hin : q.name ∈ d.names := hname ▸ List.mem_map_of_mem hmem
      simp [hin, Attempt.map, names_setParameter]

theorem mem_names_defineParameter {d : PipelineDraft} {q : ParameterDraft} {name : String} :
    name ∈ (d.defineParameter q).draft.names ↔ name ∈ d.names ∨ isReserved q.name = false ∧ name = q.name := by
  rw [names_defineParameter]
  cases hr : isReserved q.name with
  | true => simp
  | false =>
      by_cases hold : q.name ∈ d.names
      · rw [if_pos (Or.inr hold)]
        exact ⟨Or.inl, fun hname => hname.elim id fun he => he.2 ▸ hold⟩
      · simp [hold]

theorem nodup_names_defineParameter {d : PipelineDraft} (h : d.names.Nodup) (q : ParameterDraft) :
    (d.defineParameter q).draft.names.Nodup := by
  rw [names_defineParameter]
  split
  · exact h
  · rename_i hq
    refine List.nodup_append.mpr ⟨h, List.nodup_singleton _, ?_⟩
    rintro a ha b hb rfl
    exact hq (Or.inr (List.mem_singleton.mp hb ▸ ha))

theorem isReserved_of_accepted {d : PipelineDraft} {q : ParameterDraft} (h : (d.defineParameter q).refusal = none) :
    isReserved q.name = false := by
  cases hr : isReserved q.name with
  | true => simp [defineParameter, hr, Attempt.refused] at h
  | false => rfl

theorem mem_names_of_defineParameter {d : PipelineDraft} {q : ParameterDraft}
    (h : (d.defineParameter q).refusal = none) : q.name ∈ (d.defineParameter q).draft.names :=
  mem_names_defineParameter.mpr (Or.inr ⟨isReserved_of_accepted h, rfl⟩)

end PipelineDraft

end BookCompiler
