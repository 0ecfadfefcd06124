import BookCompiler.Proofs.Compile.Made

namespace BookCompiler

open Attempt

def Parameter.toDraft (q : Parameter) : ParameterDraft := { q.sketch with examples := q.examples }

namespace PipelineDraft

variable {d : PipelineDraft}

theorem mem_parameters_resolveRoles (hnames : d.names.Nodup) {q : Parameter} :
    q ∈ d.resolveRoles.build.parameters ↔
      ∃ r ∈ d.parameters, q = ⟨r.name, r.description, d.roleOf r, r.examples⟩ := by
  rw [resolveRoles_eq hnames, build, List.map_map, List.mem_map]
  exact exists_congr fun r => and_congr_right fun _ => eq_comm

theorem exists_of_declares (hnames : d.names.Nodup) {role : Role} (h : ∃ p ∈ d.parameters, p.role = some role) :
    ∃ q ∈ d.resolveRoles.build.parameters, q.role = role := by
  obtain ⟨r, hr, hrole⟩ := h
  exact ⟨_, (mem_parameters_resolveRoles hnames).mpr ⟨r, hr, rfl⟩, roleOf_of_some hrole⟩

theorem rolesSettled_resolveRoles (hnames : d.names.Nodup)
    (hdeclared : ∀ p ∈ d.parameters, p.role ≠ some .intermediate) : d.resolveRoles.build.RolesSettled := by
  intro q hq hrole
  obtain ⟨r, hr, rfl⟩ := (mem_parameters_resolveRoles hnames).mp hq
  have hintermediate : d.HasRole r .intermediate := hasRole_iff.mpr hrole.symm
  cases hintermediate with
  | declared hrole => exact absurd hrole (hdeclared r hr)
  | intermediate _ hother houtput =>
      exact ⟨exists_of_declares hnames houtput, hother.imp_left fun hinput => exists_of_declares hnames hinput⟩

end PipelineDraft

namespace Pipeline

variable {p : Pipeline} {e : PipelineDraft}

theorem RolesSettled.roleOf (h : p.RolesSettled)
    (hdeclares : ∀ r ∈ p.parameters, r.role ≠ .intermediate → ∃ x ∈ e.parameters, x.role = some r.role)
    (htasks : ∀ t ∈ p.tasks, t ∈ e.tasks) {q : Parameter} (hq : q ∈ p.parameters) {x : ParameterDraft}
    (hname : x.name = q.name) (hrole : x.role = q.sketch.role) : e.roleOf x = q.role := by
  apply PipelineDraft.roleOf_eq_of_hasRole
  by_cases hintermediate : q.role = .intermediate
  · obtain ⟨⟨r, hr, hout⟩, hother⟩ := h q hq hintermediate
    have hopen : x.role = none := by simp [hrole, Parameter.sketch, hintermediate]
    rw [hintermediate]
    refine .intermediate hopen ?_ (hout ▸ hdeclares r hr (by simp [hout]))
    rcases hother with ⟨r, hr, hin⟩ | ⟨t, ht, hresult⟩
    · exact Or.inl (hin ▸ hdeclares r hr (by simp [hin]))
    · exact Or.inr ⟨t, htasks t ht, hname ▸ hresult⟩
  · exact .declared (by simp [hrole, Parameter.sketch, hintermediate])

theorem RolesSettled.parameters_resolveRoles (h : p.RolesSettled) (hnodup : (p.parameters.map Parameter.name).Nodup)
    (g : Parameter → ParameterDraft) (hname : ∀ q, (g q).name = q.name) (hrole : ∀ q, (g q).role = q.sketch.role)
    (hparameters : e.parameters = p.parameters.map g) (htasks : e.tasks = p.tasks) :
    e.resolveRoles.parameters = p.parameters.map fun q => { g q with role := some q.role } := by
  have hnames : e.names = p.parameters.map Parameter.name := by
    rw [PipelineDraft.names, hparameters, List.map_map]
    exact List.map_congr_left fun q _ => hname q
  have hdeclares : ∀ r ∈ p.parameters, r.role ≠ .intermediate → ∃ x ∈ e.parameters, x.role = some r.role := by
    intro r hr hne
    refine ⟨g r, hparameters ▸ List.mem_map_of_mem hr, ?_⟩
    rw [hrole, Parameter.sketch, if_neg hne]
  rw [PipelineDraft.parameters_resolveRoles (hnames ▸ hnodup), hparameters, List.map_map]
  apply List.map_congr_left
  intro q hq
  rw [Function.comp_apply, h.roleOf hdeclares (by simp [htasks]) hq (hname q) (hrole q)]

end Pipeline

namespace PipelineDraft

variable {d : PipelineDraft}

/-- A draft with its parameters declared once more, as the pipeline declares them that it makes. What was found to
be intermediate is open again. -/
def redeclared (d : PipelineDraft) : PipelineDraft :=
  { d with parameters := d.build.parameters.map Parameter.toDraft }

/-- Resolved roles survive being declared: resolved again, with the same tasks, they are what they were, and the
declarations that a pipeline writes for its parameters are accepted by any draft without parameters and bring the
roles back. -/
theorem resolveRoles_redeclared (hd : d.names.Nodup) (hdeclared : ∀ p ∈ d.parameters, p.role ≠ some .intermediate) :
    d.resolveRoles.redeclared.resolveRoles = d.resolveRoles ∧
    ((∀ name ∈ d.names, isReserved name = false) → ∀ e : PipelineDraft, e.parameters = [] → e.tasks = d.tasks →
      ∃ f,
        (each Command.applyToHead (d.resolveRoles.build.parameters.map fun q => .parameter q.declaration) e).Yields f ∧
        f.resolveRoles.parameters = d.resolveRoles.parameters.map fun p => { p with examples := [] }) := by
  have hsettled := rolesSettled_resolveRoles hd hdeclared
  have hnames := d.names_resolveRoles
  have hnodup : (d.resolveRoles.build.parameters.map Parameter.name).Nodup := hnames ▸ hd
  constructor
  · have hparameters : d.resolveRoles.redeclared.resolveRoles.parameters = d.resolveRoles.parameters := by
      have hagain := hsettled.parameters_resolveRoles hnodup (e := d.resolveRoles.redeclared) Parameter.toDraft
        (fun _ => rfl) (fun _ => rfl) rfl rfl
      rw [hagain, build, parameters_resolveRoles hd, List.map_map, List.map_map]
      rfl
    calc d.resolveRoles.redeclared.resolveRoles
      _ = { d with parameters := d.resolveRoles.redeclared.resolveRoles.parameters } := rfl
      _ = { d with parameters := d.resolveRoles.parameters } := by rw [hparameters]
      _ = d.resolveRoles := rfl
  · intro hfree e hempty htasks
    have hfresh : ∀ q ∈ d.resolveRoles.build.parameters, isReserved q.name = false := fun q hq =>
      hfree q.name (hnames ▸ List.mem_map_of_mem hq)
    have hyields := each_parameter (d := e) hfresh (by simpa [names, hempty] using hnodup)
    rw [hempty, List.nil_append] at hyields
    refine ⟨_, hyields, ?_⟩
    have hagain := hsettled.parameters_resolveRoles hnodup Parameter.sketch (fun _ => rfl) (fun _ => rfl)
      (e := { e with parameters := d.resolveRoles.build.parameters.map Parameter.sketch }) rfl htasks
    rw [hagain, build, parameters_resolveRoles hd, List.map_map, List.map_map, List.map_map]
    rfl

theorem resolveRoles_redeclared_relayDraft :
    relayDraft.resolveRoles.redeclared.parameters.map ParameterDraft.role = [some .input, none, some .output] ∧
    relayDraft.resolveRoles.redeclared.resolveRoles = relayDraft.resolveRoles ∧
    ∃ f, (each Command.applyToHead (relayDraft.resolveRoles.build.parameters.map fun q => .parameter q.declaration)
        { title := "U", tasks := relayDraft.tasks }).Yields f ∧
      f.resolveRoles.parameters = relayDraft.resolveRoles.parameters.map fun p => { p with examples := [] } := by
  obtain ⟨hagain, hcommands⟩ := resolveRoles_redeclared (d := relayDraft) (by decide) (by decide)
  exact ⟨by decide, hagain, hcommands (by decide) _ rfl rfl⟩

example : let d : PipelineDraft := { title := "T", parameters := [{ name := "a", role := some .intermediate }] }
    d.resolveRoles.redeclared.resolveRoles ≠ d.resolveRoles := by
  decide

end PipelineDraft

end BookCompiler
