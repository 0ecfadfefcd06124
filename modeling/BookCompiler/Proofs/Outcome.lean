import Mathlib.Data.List.Forall2

namespace BookCompiler

theorem bind_ok {ε α β : Type} {x : Except ε α} {f : α → Except ε β} {b : β} (h : (x >>= f) = .ok b) :
    ∃ a, x = .ok a ∧ f a = .ok b := by
  cases x with
  | error e => cases h
  | ok a => exact ⟨a, rfl, h⟩

theorem map_ok {ε α β : Type} {x : Except ε α} {f : α → β} {b : β} (h : x.map f = .ok b) :
    ∃ a, x = .ok a ∧ f a = b := by
  cases x with
  | error e => cases h
  | ok a => exact ⟨a, rfl, Except.ok.inj h⟩

theorem map_eq_error_iff {ε α β : Type} {x : Except ε α} {f : α → β} {e : ε} : x.map f = .error e ↔ x = .error e := by
  cases x <;> simp [Except.map]

theorem bind_eq_error_iff {ε α β : Type} {x : Except ε α} {f : α → Except ε β} {e : ε} :
    (x >>= f) = .error e ↔ x = .error e ∨ ∃ a, x = .ok a ∧ f a = .error e := by
  cases x <;> simp [bind, Except.bind]

/-- What holds of the answer, if there is one. -/
def Ensures {ε α : Type} (x : Except ε α) (I : α → Prop) : Prop := ∀ a, x = .ok a → I a

namespace Ensures

variable {ε α β : Type} {I : α → Prop} {J : β → Prop}

theorem ok {a : α} (h : I a) : Ensures (.ok a : Except ε α) I := by
  rintro b ⟨⟩
  exact h

theorem error (e : ε) : Ensures (.error e) I := nofun

theorem ite {p : Prop} [Decidable p] {x y : Except ε α} (hpos : p → Ensures x I) (hneg : ¬ p → Ensures y I) :
    Ensures (if p then x else y) I := by
  by_cases h : p
  · rw [if_pos h]
    exact hpos h
  · rw [if_neg h]
    exact hneg h

theorem bind {x : Except ε α} {f : α → Except ε β} (hx : Ensures x I) (hf : ∀ a, I a → Ensures (f a) J) :
    Ensures (x >>= f) J := by
  cases x with
  | error e => exact nofun
  | ok a => exact hf a (hx a rfl)

theorem andThen {x : Except ε α} {f : α → Except ε β} (hf : ∀ a, Ensures (f a) J) : Ensures (x >>= f) J := by
  cases x with
  | error e => exact nofun
  | ok a => exact hf a

theorem map {x : Except ε α} {f : α → β} (hx : Ensures x I) (hf : ∀ a, I a → J (f a)) : Ensures (x.map f) J := by
  cases x with
  | error e => exact nofun
  | ok a => exact ok (hf a (hx a rfl))

theorem mapM {f : α → Except ε β} {l : List α} (hf : ∀ a ∈ l, Ensures (f a) J) :
    Ensures (l.mapM f) fun bs => ∀ b ∈ bs, J b := by
  induction l with
  | nil => exact ok (by simp)
  | cons a l ih =>
      obtain ⟨ha, hl⟩ := List.forall_mem_cons.mp hf
      rw [List.mapM_cons]
      refine ha.bind fun b hb => (ih hl).bind fun bs hbs => ok ?_
      simpa using ⟨hb, hbs⟩

end Ensures

theorem mem_of_mapM_ok {ε α β : Type} {f : α → Except ε β} {xs : List α} {ys : List β} (h : xs.mapM f = .ok ys) :
    ∀ y ∈ ys, ∃ x ∈ xs, f x = .ok y :=
  Ensures.mapM (fun x hx _ hy => ⟨x, hx, hy⟩) ys h

theorem forall₂_of_mapM {ε α β : Type} {f : α → Except ε β} {xs : List α} {ys : List β} (h : xs.mapM f = .ok ys) :
    List.Forall₂ (fun x y => f x = .ok y) xs ys := by
  induction xs generalizing ys with
  | nil =>
      cases h
      exact .nil
  | cons x xs ih =>
      rw [List.mapM_cons] at h
      obtain ⟨b, hb, h⟩ := bind_ok h
      obtain ⟨bs, hbs, h⟩ := bind_ok h
      cases h
      exact .cons hb (ih hbs)

theorem exists_mapM_ok {ε α β : Type} {f : α → Except ε β} {xs : List α} (h : ∀ x ∈ xs, ∃ y, f x = .ok y) :
    ∃ ys, xs.mapM f = .ok ys := by
  induction xs with
  | nil => exact ⟨[], rfl⟩
  | cons x xs ih =>
      obtain ⟨⟨y, hy⟩, hxs⟩ := List.forall_mem_cons.mp h
      obtain ⟨ys, hys⟩ := ih hxs
      refine ⟨y :: ys, ?_⟩
      rw [List.mapM_cons, hy, hys]
      rfl

theorem exists_mapM_ok_iff {ε α β : Type} {f : α → Except ε β} {xs : List α} :
    (∃ ys, xs.mapM f = .ok ys) ↔ ∀ x ∈ xs, ∃ y, f x = .ok y := by
  refine ⟨?_, exists_mapM_ok⟩
  rintro ⟨ys, h⟩
  have hall := forall₂_of_mapM h
  clear h
  induction hall with
  | nil => exact List.forall_mem_nil _
  | cons hxy _ ih => exact List.forall_mem_cons.mpr ⟨⟨_, hxy⟩, ih⟩

theorem mapM_eq_error_iff {ε α β : Type} {f : α → Except ε β} {xs : List α} {e : ε} : xs.mapM f = .error e ↔
    ∃ before x after, xs = before ++ x :: after ∧ (∀ b ∈ before, ∃ y, f b = .ok y) ∧ f x = .error e := by
  induction xs with
  | nil => simp [pure, Except.pure]
  | cons x xs ih =>
      rw [List.mapM_cons, bind_eq_error_iff]
      constructor
      · rintro (hx | ⟨y, hy, h⟩)
        · exact ⟨[], x, xs, rfl, List.forall_mem_nil _, hx⟩
        · rcases bind_eq_error_iff.mp h with h | ⟨ys, -, h⟩
          · obtain ⟨before, z, after, rfl, hbefore, hz⟩ := ih.mp h
            exact ⟨x :: before, z, after, rfl, List.forall_mem_cons.mpr ⟨⟨y, hy⟩, hbefore⟩, hz⟩
          · cases h
      · rintro ⟨before, z, after, hxs, hbefore, hz⟩
        cases before with
        | nil =>
            cases hxs
            exact Or.inl hz
        | cons b before =>
            obtain ⟨rfl, rfl⟩ := List.cons.inj hxs
            obtain ⟨⟨y, hy⟩, hbefore⟩ := List.forall_mem_cons.mp hbefore
            refine Or.inr ⟨y, hy, ?_⟩
            rw [ih.mpr ⟨before, z, after, rfl, hbefore, hz⟩]
            rfl

theorem mapM_map_ok {ε α β γ : Type} {f : β → Except ε γ} {g : α → β} {k : α → γ} {xs : List α}
    (h : ∀ x ∈ xs, f (g x) = .ok (k x)) : (xs.map g).mapM f = .ok (xs.map k) := by
  induction xs with
  | nil => rfl
  | cons x xs ih =>
      obtain ⟨hx, hxs⟩ := List.forall_mem_cons.mp h
      rw [List.map_cons, List.mapM_cons, hx, ih hxs]
      rfl

/-- What holds of the error, if there is one. -/
def FailsAs {ε α : Type} (x : Except ε α) (P : ε → Prop) : Prop := ∀ e, x = .error e → P e

namespace FailsAs

variable {ε α β : Type} {P : ε → Prop}

theorem ok (a : α) : FailsAs (.ok a : Except ε α) P := nofun

theorem error {e : ε} (h : P e) : FailsAs (.error e : Except ε α) P := by
  rintro d ⟨⟩
  exact h

theorem ite {p : Prop} [Decidable p] {x y : Except ε α} (hx : FailsAs x P) (hy : FailsAs y P) :
    FailsAs (if p then x else y) P := by
  split
  · exact hx
  · exact hy

theorem bind {x : Except ε α} {f : α → Except ε β} (hx : FailsAs x P) (hf : ∀ a, x = .ok a → FailsAs (f a) P) :
    FailsAs (x >>= f) P := by
  cases x with
  | error e => exact error (hx e rfl)
  | ok a => exact hf a rfl

theorem map {x : Except ε α} (hx : FailsAs x P) (f : α → β) : FailsAs (x.map f) P := by
  cases x with
  | error e => exact error (hx e rfl)
  | ok a => exact ok (f a)

theorem mapM {f : α → Except ε β} {l : List α} (hf : ∀ a ∈ l, FailsAs (f a) P) : FailsAs (l.mapM f) P := by
  induction l with
  | nil => exact ok []
  | cons a l ih =>
      obtain ⟨ha, hl⟩ := List.forall_mem_cons.mp hf
      rw [List.mapM_cons]
      exact ha.bind fun b _ => (ih hl).bind fun bs _ => ok (b :: bs)

end FailsAs

/-- The second answer is the first, unless the first is an error of a kind. -/
def SameUnless {ε α : Type} (P : ε → Prop) (x y : Except ε α) : Prop := x = y ∨ ∃ e, x = .error e ∧ P e

namespace SameUnless

variable {ε α β : Type} {P : ε → Prop}

theorem refl (x : Except ε α) : SameUnless P x x := Or.inl rfl

theorem ite {p : Prop} [Decidable p] {x y x' y' : Except ε α} (hpos : SameUnless P x y) (hneg : SameUnless P x' y') :
    SameUnless P (if p then x else x') (if p then y else y') := by
  by_cases h : p
  · rwa [if_pos h, if_pos h]
  · rwa [if_neg h, if_neg h]

theorem bind {x y : Except ε α} {f g : α → Except ε β} (h : SameUnless P x y) (hfg : ∀ a, SameUnless P (f a) (g a)) :
    SameUnless P (x >>= f) (y >>= g) := by
  rcases h with rfl | ⟨e, rfl, he⟩
  · cases x with
    | error e => exact refl _
    | ok a => exact hfg a
  · exact Or.inr ⟨e, rfl, he⟩

theorem map {x y : Except ε α} (f : α → β) (h : SameUnless P x y) : SameUnless P (x.map f) (y.map f) := by
  rcases h with rfl | ⟨e, rfl, he⟩
  · exact refl _
  · exact Or.inr ⟨e, rfl, he⟩

theorem mapM {f g : α → Except ε β} (hfg : ∀ a, SameUnless P (f a) (g a)) (l : List α) :
    SameUnless P (l.mapM f) (l.mapM g) := by
  induction l with
  | nil => exact refl _
  | cons a l ih =>
      rw [List.mapM_cons, List.mapM_cons]
      exact (hfg a).bind fun _ => ih.bind fun _ => refl _

end SameUnless

end BookCompiler
