import BookCompiler.Proofs.Outcome
import BookCompiler.Script.Basic

namespace BookCompiler.Script

variable {σ : Type} {lexeme : σ → Char → List Char → Except Failure (σ × Nat)}

/-- A scan comes to the top of its loop before the text `t`, in the state `goal`. -/
inductive Reaches (lexeme : σ → Char → List Char → Except Failure (σ × Nat)) (goal : σ) (t : List Char) :
    σ → Nat → List Char → Prop
  | here : Reaches lexeme goal t goal 0 t
  | pass {state : σ} {more : Nat} {c : Char} {s : List Char} (h : Reaches lexeme goal t state more s) :
      Reaches lexeme goal t state (more + 1) (c :: s)
  | read {state next : σ} {more : Nat} {c : Char} {s : List Char} (hread : lexeme state c s = .ok (next, more))
      (h : Reaches lexeme goal t next more s) : Reaches lexeme goal t state 0 (c :: s)

namespace Reaches

variable {goal state : σ} {more : Nat} {s t : List Char}

theorem length_le (h : Reaches lexeme goal t state more s) : more + t.length ≤ s.length := by
  induction h with
  | here => omega
  | pass _ ih | read _ _ ih => rw [List.length_cons]; omega

theorem suffix (h : Reaches lexeme goal t state more s) : t <:+ s := by
  induction h with
  | here => exact List.suffix_rfl
  | pass _ ih | read _ _ ih => exact ih.trans (List.suffix_cons _ _)

theorem scan_eq (h : Reaches lexeme goal t state more s) : scan lexeme state more s = scan lexeme goal 0 t := by
  induction h with
  | here => rfl
  | pass _ ih => exact ih
  | read hread _ ih =>
      rw [scan, hread]
      exact ih

/-- If no lexeme that ends before `x` looks at what can be exchanged for it, then the scan comes as far with `y` in
its place. -/
theorem exchange {x y : List Char} (hlocal : ∀ state c u next more, lexeme state c (u ++ x) = .ok (next, more) →
      more ≤ u.length → lexeme state c (u ++ y) = .ok (next, more))
    {u : List Char} (h : Reaches lexeme goal x state more (u ++ x)) : Reaches lexeme goal y state more (u ++ y) := by
  generalize hs : u ++ x = s at h
  induction h generalizing u with
  | here =>
      rw [List.append_left_eq_self.mp hs]
      exact .here
  | pass h ih =>
      cases u with
      | nil =>
          have hle := h.length_le
          rw [List.nil_append] at hs
          rw [hs, List.length_cons] at hle
          omega
      | cons d u =>
          rw [List.cons_append, List.cons.injEq] at hs
          obtain ⟨rfl, hs⟩ := hs
          exact .pass (ih hs)
  | read hread h ih =>
      have hle := h.length_le
      cases u with
      | nil =>
          rw [List.nil_append] at hs
          rw [hs, List.length_cons] at hle
          omega
      | cons d u =>
          rw [List.cons_append, List.cons.injEq] at hs
          obtain ⟨rfl, rfl⟩ := hs
          rw [List.length_append] at hle
          exact .read (hlocal _ _ u _ _ hread (by omega)) (ih rfl)

end Reaches

theorem scan_drop (state : σ) (more : Nat) (s : List Char) :
    scan lexeme state more s = scan lexeme state 0 (s.drop more) := by
  induction s generalizing more with
  | nil => cases more <;> rfl
  | cons c s ih =>
      cases more with
      | zero => rfl
      | succ more => exact ih more

/-- A scan fails where a lexeme that it comes to does. -/
theorem scan_eq_error_iff {state : σ} {more : Nat} {s : List Char} {e : Failure} : scan lexeme state more s = .error e ↔
    ∃ goal c rest, Reaches lexeme goal (c :: rest) state more s ∧ lexeme goal c rest = .error e := by
  constructor
  · intro h
    induction s generalizing state more with
    | nil => cases more <;> cases h
    | cons c s ih =>
        cases more with
        | succ more =>
            obtain ⟨goal, d, rest, hreach, hfails⟩ := ih h
            exact ⟨goal, d, rest, .pass hreach, hfails⟩
        | zero =>
            rw [scan] at h
            rcases bind_eq_error_iff.mp h with h | ⟨⟨next, n⟩, hread, h⟩
            · exact ⟨state, c, s, .here, h⟩
            · obtain ⟨goal, d, rest, hreach, hfails⟩ := ih h
              exact ⟨goal, d, rest, .read hread hreach, hfails⟩
  · rintro ⟨goal, c, rest, hreach, hfails⟩
    rw [hreach.scan_eq, scan, hfails]
    rfl

theorem scan_ensures_reached {I : σ → Prop} {state : σ} {more : Nat} {s : List Char}
    (step : ∀ before c rest, Reaches lexeme before (c :: rest) state more s → I before →
      Ensures (lexeme before c rest) fun r => I r.1)
    (h : I state) : Ensures (scan lexeme state more s) I := by
  induction s generalizing state more with
  | nil => exact .ok h
  | cons c rest ih =>
      cases more with
      | succ more => exact ih (fun before d t hreach => step before d t (.pass hreach)) h
      | zero =>
          intro final hfinal
          rw [scan] at hfinal
          cases hread : lexeme state c rest with
          | error e =>
              rw [hread] at hfinal
              cases hfinal
          | ok r =>
              rw [hread] at hfinal
              exact ih (fun before d t hreach => step before d t (.read hread hreach)) (step state c rest .here h r hread)
                final hfinal

end BookCompiler.Script
