import BookCompiler.Compile.Roles
import BookCompiler.Proofs.Draft.Parameters
import Mathlib.Data.List.Forall2
import Mathlib.Data.List.Perm.Basic

namespace BookCompiler

theorem map_name_assignRole (role : Role) (name : String) (ps : List ParameterDraft) :
    (assignRole role name ps).map ParameterDraft.name = ps.map ParameterDraft.name := by
  induction ps with
  | nil => rfl
  | cons p rest ih =>
      rw [assignRole]
      split
      · rfl
      · rw [List.map_cons, List.map_cons, ih]

theorem assignRole_eq_map (role : Role) (name : String) {ps : List ParameterDraft}
    (h : (ps.map ParameterDraft.name).Nodup) :
    assignRole role name ps = ps.map fun p => if p.name = name then { p with role := some role } else p := by
  induction ps with
  | nil => rfl
  | cons p rest ih =>
      obtain ⟨hnew, hrest⟩ := List.nodup_cons.mp h
      rw [assignRole, List.map_cons]
      by_cases hp : p.name = name
      · have hother : ∀ q ∈ rest, q.name ≠ name := fun q hq he => hnew (hp ▸ he ▸ List.mem_map_of_mem hq)
        rw [if_pos hp, if_pos hp, List.map_congr_left fun q hq => if_neg (hother q hq), List.map_id']
      · rw [if_neg hp, if_neg hp, ih hrest]

theorem map_name_foldl_assignRole (role : Role) (names : List String) (ps : List ParameterDraft) :
    (names.foldl (fun ps name => assignRole role name ps) ps).map ParameterDraft.name =
      ps.map ParameterDraft.name := by
  induction names generalizing ps with
  | nil => rfl
  | cons name names ih => rw [List.foldl_cons, ih, map_name_assignRole]

theorem foldl_assignRole (role : Role) (names : List String) {ps : List ParameterDraft}
    (h : (ps.map ParameterDraft.name).Nodup) : names.foldl (fun ps name => assignRole role name ps) ps =
      ps.map fun p => if p.name ∈ names then { p with role := some role } else p := by
  induction names generalizing ps with
  | nil => simp
  | cons name names ih =>
      rw [List.foldl_cons, ih (by rwa [map_name_assignRole]), assignRole_eq_map role name h, List.map_map]
      apply List.map_congr_left
      intro p _
      by_cases hp : p.name = name
      · simp [hp]
      · simp [hp]

namespace PipelineDraft

variable {d e : PipelineDraft}

theorem isTaskResult_iff (d : PipelineDraft) (name : String) :
    d.isTaskResult name = true ↔ ∃ t ∈ d.tasks, t.result = some name := by
  simp [isTaskResult]

theorem declares_iff (d : PipelineDraft) (role : Role) :
    d.declares role = true ↔ ∃ p ∈ d.parameters, p.role = some role := by
  simp [declares]

theorem names_inferInputs (d : PipelineDraft) : d.inferInputs.names = d.names := by
  rw [names, inferInputs]
  dsimp only
  split
  · rfl
  · exact map_name_foldl_assignRole .input _ _

theorem names_resolved (d : PipelineDraft) : d.resolveRoles.names = d.names := by
  rw [← d.names_inferInputs]
  simp [resolveRoles, inferOutputs, names]

/-- The role of a parameter. Where no input is declared, what no task produces is an input; where no
output is declared, all else is an output. -/
def roleOf (d : PipelineDraft) (p : ParameterDraft) : Role :=
  match p.role with
  | some role => role
  | none =>
    if !d.declares .input && !d.isTaskResult p.name then .input
    else if d.declares .output then .intermediate
    else .output

theorem mem_unproducedNames (hd : d.names.Nodup) {p : ParameterDraft} (hp : p ∈ d.parameters) :
    p.name ∈ d.unproducedNames ↔ p.role = none ∧ d.isTaskResult p.name = false := by
  simp only [unproducedNames, List.mem_map, List.mem_filter, Bool.and_eq_true, Option.isNone_iff_eq_none,
    Bool.not_eq_true']
  constructor
  · rintro ⟨q, ⟨hq, hopen⟩, hname⟩
    rwa [List.inj_on_of_nodup_map hd hq hp hname] at hopen
  · exact fun hopen => ⟨p, ⟨hp, hopen⟩, rfl⟩

theorem parameters_inferInputs (hd : d.names.Nodup) : d.inferInputs.parameters = d.parameters.map fun p =>
    if p.role = none ∧ d.declares .input = false ∧ d.isTaskResult p.name = false then { p with role := some .input }
    else p := by
  rw [inferInputs]
  dsimp only
  cases hinput : d.declares .input with
  | true => simp
  | false =>
      rw [if_neg (by simp), foldl_assignRole .input _ hd]
      apply List.map_congr_left
      intro p hp
      simp only [mem_unproducedNames hd hp, true_and]

theorem declares_output_inferInputs (hd : d.names.Nodup) : d.inferInputs.declares .output = d.declares .output := by
  rw [declares, parameters_inferInputs hd, List.any_map, declares]
  congr 1
  funext p
  simp only [Function.comp_apply]
  split
  · rename_i hopen
    rw [hopen.1]
    rfl
  · rfl

/-- Both phases together give every parameter the role that the draft as it was at first asks for. -/
theorem resolveRoles_eq (hd : d.names.Nodup) : d.resolveRoles =
    { d with parameters := d.parameters.map fun p => { p with role := some (d.roleOf p) } } := by
  have hparameters : d.resolveRoles.parameters =
      d.parameters.map fun p => { p with role := some (d.roleOf p) } := by
    rw [resolveRoles, inferOutputs, declares_output_inferInputs hd]
    dsimp only
    rw [parameters_inferInputs hd, List.map_map]
    apply List.map_congr_left
    intro p _
    cases hrole : p.role with
    | some role => simp [roleOf, hrole]
    | none =>
        cases hinput : d.declares .input <;> cases hresult : d.isTaskResult p.name <;>
          simp [roleOf, hrole, hinput, hresult]
  rw [← hparameters]
  rfl

theorem parameters_resolveRoles (hd : d.names.Nodup) :
    d.resolveRoles.parameters = d.parameters.map fun p => { p with role := some (d.roleOf p) } := by
  rw [resolveRoles_eq hd]

theorem roleOf_of_some {p : ParameterDraft} {role : Role} (h : p.role = some role) : d.roleOf p = role := by
  rw [roleOf, h]

theorem resolveRoles_idem (hd : d.names.Nodup) : d.resolveRoles.resolveRoles = d.resolveRoles := by
  have hagain : d.resolveRoles.names.Nodup := d.names_resolved ▸ hd
  have hsame : d.resolveRoles.parameters.map (fun q => { q with role := some (d.resolveRoles.roleOf q) }) =
      d.resolveRoles.parameters := by
    rw [parameters_resolveRoles hd, List.map_map]
    exact List.map_congr_left fun p _ => rfl
  rw [resolveRoles_eq hagain, hsame]

theorem roleOf_perm (hparameters : e.parameters.Perm d.parameters) (htasks : e.tasks.Perm d.tasks)
    (p : ParameterDraft) : e.roleOf p = d.roleOf p := by
  have hdeclares (role : Role) : e.declares role = d.declares role := hparameters.any_eq
  have hresult : e.isTaskResult p.name = d.isTaskResult p.name := htasks.any_eq
  simp only [roleOf, hdeclares, hresult]

theorem resolveRoles_perm (hd : d.names.Nodup) (hparameters : e.parameters.Perm d.parameters)
    (htasks : e.tasks.Perm d.tasks) : e.resolveRoles.parameters.Perm d.resolveRoles.parameters := by
  have he : e.names.Nodup := (hparameters.map _).nodup_iff.mpr hd
  simp only [parameters_resolveRoles hd, parameters_resolveRoles he, roleOf_perm hparameters htasks]
  exact hparameters.map _

theorem parameter?_of_perm (hd : d.names.Nodup) (h : e.parameters.Perm d.parameters) :
    e.parameter? = d.parameter? := by
  have he : e.names.Nodup := (h.map _).nodup_iff.mpr hd
  funext name
  apply Option.ext
  intro q
  constructor
  · intro hq
    obtain ⟨hmem, rfl⟩ := parameter?_eq_some hq
    exact (parameter?_eq_some_iff hd q).mpr (h.mem_iff.mp hmem)
  · intro hq
    obtain ⟨hmem, rfl⟩ := parameter?_eq_some hq
    exact (parameter?_eq_some_iff he q).mpr (h.mem_iff.mpr hmem)

/-- The role that a parameter comes to have, by what the draft declares and what its tasks produce. -/
inductive HasRole (d : PipelineDraft) (p : ParameterDraft) : Role → Prop
  | declared {role : Role} (hrole : p.role = some role) : HasRole d p role
  | input (hopen : p.role = none) (hinput : ∀ q ∈ d.parameters, q.role ≠ some .input)
      (hresult : ∀ t ∈ d.tasks, t.result ≠ some p.name) : HasRole d p .input
  | intermediate (hopen : p.role = none)
      (hother : (∃ q ∈ d.parameters, q.role = some .input) ∨ ∃ t ∈ d.tasks, t.result = some p.name)
      (houtput : ∃ q ∈ d.parameters, q.role = some .output) : HasRole d p .intermediate
  | output (hopen : p.role = none)
      (hother : (∃ q ∈ d.parameters, q.role = some .input) ∨ ∃ t ∈ d.tasks, t.result = some p.name)
      (houtput : ∀ q ∈ d.parameters, q.role ≠ some .output) : HasRole d p .output

theorem roleOf_eq_of_hasRole {p : ParameterDraft} {role : Role} (h : d.HasRole p role) : d.roleOf p = role := by
  cases h with
  | declared hrole => exact roleOf_of_some hrole
  | input hopen hinput hresult =>
      have hnone : d.declares .input = false := by simpa [declares] using hinput
      have hfree : d.isTaskResult p.name = false := by simpa [isTaskResult] using hresult
      simp [roleOf, hopen, hnone, hfree]
  | intermediate hopen hother houtput =>
      rw [← declares_iff, ← isTaskResult_iff] at hother
      have hdeclared := (d.declares_iff .output).mpr houtput
      rcases hother with hinput | hresult
      · simp [roleOf, hopen, hinput, hdeclared]
      · simp [roleOf, hopen, hresult, hdeclared]
  | output hopen hother houtput =>
      rw [← declares_iff, ← isTaskResult_iff] at hother
      have hnone : d.declares .output = false := by simpa [declares] using houtput
      rcases hother with hinput | hresult
      · simp [roleOf, hopen, hinput, hnone]
      · simp [roleOf, hopen, hresult, hnone]

theorem hasRole_roleOf (d : PipelineDraft) (p : ParameterDraft) : d.HasRole p (d.roleOf p) := by
  cases hrole : p.role with
  | some role => exact roleOf_of_some hrole ▸ .declared hrole
  | none =>
      by_cases hinput : (∃ q ∈ d.parameters, q.role = some .input) ∨ ∃ t ∈ d.tasks, t.result = some p.name
      · by_cases houtput : ∃ q ∈ d.parameters, q.role = some .output
        · have h := HasRole.intermediate hrole hinput houtput
          exact roleOf_eq_of_hasRole h ▸ h
        · push Not at houtput
          have h := HasRole.output hrole hinput houtput
          exact roleOf_eq_of_hasRole h ▸ h
      · push Not at hinput
        have h := HasRole.input hrole hinput.1 hinput.2
        exact roleOf_eq_of_hasRole h ▸ h

theorem hasRole_iff {p : ParameterDraft} {role : Role} : d.HasRole p role ↔ role = d.roleOf p := by
  constructor
  · exact fun h => (roleOf_eq_of_hasRole h).symm
  · rintro rfl
    exact d.hasRole_roleOf p

/-- Resolving the roles of distinct parameters changes nothing but roles, and gives each parameter the one role
that the draft asks for. The order of parameters and tasks does not matter, a second time changes nothing, and
an input that a task produces was declared as one. -/
theorem resolveRoles_settles (hd : d.names.Nodup) :
    d.resolveRoles = { d with parameters := d.resolveRoles.parameters } ∧
    List.Forall₂ (fun p q => ∃ role, q = { p with role := some role } ∧ ∀ other, d.HasRole p other ↔ other = role)
      d.parameters d.resolveRoles.parameters ∧
    (∀ e : PipelineDraft, e.parameters.Perm d.parameters → e.tasks.Perm d.tasks →
      e.resolveRoles.parameter? = d.resolveRoles.parameter?) ∧
    d.resolveRoles.resolveRoles = d.resolveRoles ∧
    ∀ q ∈ d.resolveRoles.parameters, q.role = some .input → (∃ t ∈ d.tasks, t.result = some q.name) →
      ∃ p ∈ d.parameters, p.name = q.name ∧ p.role = some .input := by
  refine ⟨rfl, ?_, ?_, resolveRoles_idem hd, ?_⟩
  · rw [parameters_resolveRoles hd, List.forall₂_map_right_iff]
    exact List.forall₂_same.mpr fun p _ => ⟨d.roleOf p, rfl, fun _ => hasRole_iff⟩
  · intro e hparameters htasks
    exact parameter?_of_perm (d.names_resolved ▸ hd) (resolveRoles_perm hd hparameters htasks)
  · intro q hq hinput hresult
    rw [parameters_resolveRoles hd] at hq
    obtain ⟨p, hp, rfl⟩ := List.mem_map.mp hq
    refine ⟨p, hp, rfl, ?_⟩
    have hrole : d.HasRole p .input := hasRole_iff.mpr (Option.some.inj hinput).symm
    cases hrole with
    | declared hrole => exact hrole
    | input _ _ hfree =>
        obtain ⟨t, ht, hres⟩ := hresult
        exact absurd hres (hfree t ht)

def relayDraft : PipelineDraft where
  title := "T"
  parameters := [{ name := "topic" }, { name := "notes" }, { name := "poem", role := some .output }]
  tasks :=
    [{ name := "a", title := "A", type := .prompt, content := "", result := some "notes" },
     { name := "b", title := "B", type := .prompt, content := "", result := some "poem" }]

theorem resolveRoles_settles_relayDraft :
    relayDraft.resolveRoles.parameters.map ParameterDraft.role =
      [some .input, some .intermediate, some .output] ∧
    relayDraft.resolveRoles.resolveRoles = relayDraft.resolveRoles :=
  ⟨by decide, (resolveRoles_settles (d := relayDraft) (by decide)).2.2.2.1⟩

end PipelineDraft

end BookCompiler
