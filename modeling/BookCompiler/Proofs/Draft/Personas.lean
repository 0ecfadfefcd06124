import BookCompiler.Command.Error
import BookCompiler.Proofs.Draft.Parameters
import Mathlib.Logic.Function.Iterate

namespace BookCompiler

section Replace

variable {α : Type} {p : α → Bool} {a b : α} {l : List α}

theorem find?_replaceFirst_self (ha : p a = true) (h : (l.find? p).isSome) : (replaceFirst p a l).find? p = some a := by
  induction l with
  | nil => cases h
  | cons c l ih =>
      rw [replaceFirst]
      by_cases hc : p c = true
      · rw [if_pos hc, List.find?_cons_of_pos ha]
      · rw [List.find?_cons_of_neg hc] at h
        rw [if_neg hc, List.find?_cons_of_neg hc, ih h]

theorem replaceFirst_replaceFirst (ha : p a = true) : replaceFirst p b (replaceFirst p a l) = replaceFirst p b l := by
  induction l with
  | nil => rfl
  | cons c l ih =>
      by_cases hc : p c = true
      · simp [replaceFirst, hc, ha]
      · simp [replaceFirst, hc, ih]

end Replace

def putBelow (new current : String) : String := current ++ "\n\n" ++ new

theorem length_putBelow (new current : String) : (putBelow new current).length = current.length + 2 + new.length := by
  rw [putBelow, String.length_append, String.length_append]
  rfl

theorem putBelow_ne (new current : String) : putBelow new current ≠ new ∧ putBelow new current ≠ current := by
  have hlength := length_putBelow new current
  constructor <;> intro h <;> rw [h] at hlength <;> omega

theorem iterate_putBelow_ne {new current : String} (h : current ≠ new) (n : Nat) : (putBelow new)^[n] current ≠ new := by
  cases n with
  | zero => exact h
  | succ n =>
      rw [Function.iterate_succ_apply']
      exact (putBelow_ne new _).1

namespace PipelineDraft

def persona? (d : PipelineDraft) (name : String) : Option Persona := d.personas.find? fun q => q.name == name

def saidOf (d : PipelineDraft) (name : String) : Option String := (d.persona? name).bind Persona.description

def withPersona (d : PipelineDraft) (name : String) (description : Option String) : PipelineDraft :=
  (d.registerPersona name description : Attempt ApplyError PipelineDraft).draft

variable {d : PipelineDraft} {name new current : String} {description : Option String} {q : Persona} {ε : Type}

section Personas

theorem persona?_setPersona (h : d.persona? name = some q) (description : Option String) :
    (d.setPersona ⟨name, description⟩).persona? name = some ⟨name, description⟩ :=
  find?_replaceFirst_self (by simp) (Option.isSome_iff_exists.mpr ⟨q, h⟩)

theorem persona?_append (h : d.persona? name = none) :
    ({ d with personas := d.personas ++ [⟨name, description⟩] } : PipelineDraft).persona? name =
      some ⟨name, description⟩ := by
  rw [persona?] at h
  rw [persona?, List.find?_append, h]
  simp

theorem setPersona_setPersona (d : PipelineDraft) (name : String) (first second : Option String) :
    (d.setPersona ⟨name, first⟩).setPersona ⟨name, second⟩ = d.setPersona ⟨name, second⟩ :=
  congrArg (fun personas => { d with personas }) (replaceFirst_replaceFirst (by simp))

theorem setPersona_self (h : d.persona? name = some q) (hsaid : q.description = some current) :
    d.setPersona ⟨name, some current⟩ = d := by
  have hname : q.name = name := by simpa using List.find?_some h
  obtain rfl : q = ⟨name, some current⟩ := by rw [← hname, ← hsaid]
  exact congrArg (fun personas => { d with personas }) (replaceFirst_self h)

end Personas

section Declarations

theorem registerPersona_unknown (h : d.persona? name = none) (description : Option String) :
    (d.registerPersona name description : Attempt ε PipelineDraft) =
      .done { d with personas := d.personas ++ [⟨name, description⟩] } := by
  rw [persona?] at h
  rw [registerPersona, h]

theorem registerPersona_said (hq : d.persona? name = some q) (h : ∀ new ∈ description, q.description = some new) :
    (d.registerPersona name description : Attempt ε PipelineDraft) = .done d := by
  rw [persona?] at hq
  rw [registerPersona, hq]
  cases description with
  | none => rfl
  | some new => simp [h new rfl]

theorem registerPersona_first (hq : d.persona? name = some q) (h : q.description = none) (new : String) :
    (d.registerPersona name (some new) : Attempt ε PipelineDraft) = .done (d.setPersona ⟨name, some new⟩) := by
  rw [persona?] at hq
  rw [registerPersona, hq]
  simp [h]

theorem registerPersona_other (hq : d.persona? name = some q) (h : q.description = some current) (hne : current ≠ new) :
    (d.registerPersona name (some new) : Attempt ε PipelineDraft) =
      .noted (d.setPersona ⟨name, some (putBelow new current)⟩) (.personaMerged name) := by
  rw [persona?] at hq
  rw [registerPersona, hq]
  simp [h, hne, putBelow]

theorem persona?_withPersona (h : ∀ current ∈ d.saidOf name, ∀ new ∈ description, current = new) :
    ∃ q, (d.withPersona name description).persona? name = some q ∧ ∀ new ∈ description, q.description = some new := by
  cases hfind : d.persona? name with
  | none =>
      rw [withPersona, registerPersona_unknown hfind]
      exact ⟨_, persona?_append hfind, fun new hnew => hnew⟩
  | some q =>
      rw [saidOf, hfind, Option.bind_some] at h
      cases description with
      | none =>
          rw [withPersona, registerPersona_said hfind fun _ hnew => by cases hnew]
          exact ⟨q, hfind, fun _ hnew => by cases hnew⟩
      | some new =>
          cases hsaid : q.description with
          | none =>
              rw [withPersona, registerPersona_first hfind hsaid]
              exact ⟨_, persona?_setPersona hfind _, fun _ hnew => hnew⟩
          | some current =>
              obtain rfl := h current hsaid new rfl
              have hsame : ∀ new ∈ some current, q.description = some new := fun _ hnew => hsaid.trans hnew
              rw [withPersona, registerPersona_said hfind hsame]
              exact ⟨q, hfind, hsame⟩

end Declarations

/-- The same declaration over and over: each one puts the description once more below the others. -/
theorem iterate_withPersona (h : d.saidOf name = some current) (hne : current ≠ new) (n : Nat) :
    (fun e : PipelineDraft => e.withPersona name (some new))^[n] d =
      d.setPersona ⟨name, some ((putBelow new)^[n] current)⟩ := by
  obtain ⟨q, hq, hsaid⟩ := Option.bind_eq_some_iff.mp h
  induction n with
  | zero => exact (setPersona_self hq hsaid).symm
  | succ n ih =>
      rw [Function.iterate_succ_apply', ih, withPersona,
        registerPersona_other (persona?_setPersona hq _) rfl (iterate_putBelow_ne hne n), Function.iterate_succ_apply']
      exact d.setPersona_setPersona name _ _

/-- To declare a persona twice is to declare it once exactly if nothing else was said of it before. Otherwise each
repetition puts the same description once more below the others, and is reported as a different one. -/
theorem withPersona_again_iff (d : PipelineDraft) (name : String) (description : Option String) :
    ((d.withPersona name description).withPersona name description = d.withPersona name description ↔
      ∀ current ∈ d.saidOf name, ∀ new ∈ description, current = new) ∧
    ∀ current ∈ d.saidOf name, ∀ new ∈ description, current ≠ new → ∀ n,
      (fun e : PipelineDraft => e.withPersona name description)^[n] d =
          d.setPersona ⟨name, some ((putBelow new)^[n] current)⟩ ∧
        (((fun e : PipelineDraft => e.withPersona name description)^[n] d).registerPersona name description :
          Attempt ApplyError PipelineDraft).notices = [.personaMerged name] := by
  refine ⟨⟨fun h => ?_, fun h => ?_⟩, ?_⟩
  · intro current hcurrent new hnew
    obtain rfl : description = some new := hnew
    by_contra hne
    obtain ⟨q, hq, -⟩ := Option.bind_eq_some_iff.mp hcurrent
    have honce : d.withPersona name (some new) = _ := iterate_withPersona hcurrent hne 1
    have htwice : (d.withPersona name (some new)).withPersona name (some new) = _ := iterate_withPersona hcurrent hne 2
    rw [honce] at h htwice
    have hsame := congrArg (·.persona? name) (htwice.symm.trans h)
    simp only [persona?_setPersona hq, Option.some.injEq, Persona.mk.injEq, true_and] at hsame
    exact (putBelow_ne new (putBelow new current)).2 hsame
  · obtain ⟨q, hq, hsaid⟩ := persona?_withPersona h
    rw [withPersona, registerPersona_said hq hsaid]
    rfl
  · rintro current hcurrent new ⟨⟩ hne n
    obtain ⟨q, hq, -⟩ := Option.bind_eq_some_iff.mp hcurrent
    refine ⟨iterate_withPersona hcurrent hne n, ?_⟩
    rw [iterate_withPersona hcurrent hne n,
      registerPersona_other (persona?_setPersona hq _) rfl (iterate_putBelow_ne hne n)]
    rfl

def janeDraft : PipelineDraft := PipelineDraft.withPersona { title := "T" } "Jane" (some "copywriter")

theorem withPersona_again_iff_janeDraft :
    janeDraft.withPersona "Jane" (some "copywriter") = janeDraft ∧
      (fun e : PipelineDraft => e.withPersona "Jane" (some "poet"))^[3] janeDraft =
        janeDraft.setPersona ⟨"Jane", some "copywriter\n\npoet\n\npoet\n\npoet"⟩ := by
  have hnothing : ∀ current ∈ saidOf { title := "T" } "Jane", ∀ new ∈ some "copywriter", current = new := by
    intro current hcurrent
    cases hcurrent
  have hsaid : janeDraft.saidOf "Jane" = some "copywriter" := by decide
  obtain ⟨hsame, -⟩ := withPersona_again_iff { title := "T" } "Jane" (some "copywriter")
  obtain ⟨-, hother⟩ := withPersona_again_iff janeDraft "Jane" (some "poet")
  exact ⟨hsame.mpr hnothing, (hother "copywriter" hsaid "poet" rfl (by decide) 3).1⟩

/-- The second declaration of the same description is not recognised once the first has been put below another one. -/
theorem janeDraft_repeats :
    (janeDraft.withPersona "Jane" (some "poet")).saidOf "Jane" = some "copywriter\n\npoet" ∧
      ((janeDraft.withPersona "Jane" (some "poet")).withPersona "Jane" (some "poet")).saidOf "Jane" =
        some "copywriter\n\npoet\n\npoet" ∧
      (janeDraft.withPersona "Jane" (some "poet")).withPersona "Jane" (some "poet") ≠
        janeDraft.withPersona "Jane" (some "poet") := by
  decide

end PipelineDraft

end BookCompiler
