import BookCompiler.Text.Blank
import Mathlib.Data.List.DropRight

namespace BookCompiler.Text

theorem dropEndWhile_eq_rdropWhile (p : Char → Bool) (s : List Char) :
    dropEndWhile p s = s.rdropWhile p := rfl

/-- A text that neither begins nor ends with a character of a class. -/
def Bare (p : Char → Bool) (s : List Char) : Prop :=
  (∀ c ∈ s.head?, p c = false) ∧ ∀ c ∈ s.getLast?, p c = false

instance (p : Char → Bool) (s : List Char) : Decidable (Bare p s) :=
  decidable_of_iff (s.head?.all (!p ·) = true ∧ s.getLast?.all (!p ·) = true)
    (by simp only [Bare, Option.all_eq_true, Bool.not_eq_true', Option.mem_def])

section

variable {p : Char → Bool} {s : List Char}

theorem dropWhile_eq_self (h : ∀ c ∈ s.head?, p c = false) : s.dropWhile p = s := by
  cases s with
  | nil => rfl
  | cons c s => simp [h c rfl]

theorem dropEndWhile_eq_self (h : ∀ c ∈ s.getLast?, p c = false) : dropEndWhile p s = s := by
  rw [dropEndWhile_eq_rdropWhile, List.rdropWhile_eq_self_iff]
  intro hne
  rw [h _ (List.getLast?_eq_getLast_of_ne_nil hne)]
  exact Bool.false_ne_true

theorem Bare.trimMatching_eq (h : Bare p s) : trimMatching p s = s := by
  rw [trimMatching, dropWhile_eq_self h.1, dropEndWhile_eq_self h.2]

theorem head?_dropWhile (p : Char → Bool) (s : List Char) : ∀ c ∈ (s.dropWhile p).head?, p c = false := by
  intro c hc
  have h := List.head?_dropWhile_not p s
  rw [Option.mem_def.mp hc] at h
  simpa using h

theorem getLast?_dropEndWhile (p : Char → Bool) (s : List Char) :
    ∀ c ∈ (dropEndWhile p s).getLast?, p c = false := by
  intro c hc
  rw [dropEndWhile, List.getLast?_reverse] at hc
  exact head?_dropWhile p s.reverse c hc

theorem dropEndWhile_isPrefix (p : Char → Bool) (s : List Char) : dropEndWhile p s <+: s :=
  List.rdropWhile_prefix p s

theorem trimMatching_bare (p : Char → Bool) (s : List Char) : Bare p (trimMatching p s) := by
  refine ⟨?_, getLast?_dropEndWhile p _⟩
  intro c hc
  apply head?_dropWhile p s c
  obtain ⟨t, ht⟩ := dropEndWhile_isPrefix p (s.dropWhile p)
  rw [trimMatching] at hc
  rw [← ht, List.head?_append, Option.mem_def.mp hc]
  rfl

theorem trimMatching_isInfix (p : Char → Bool) (s : List Char) : trimMatching p s <:+: s :=
  (dropEndWhile_isPrefix p _).isInfix.trans (List.dropWhile_suffix p).isInfix

end

abbrev Trimmed (s : List Char) : Prop := Bare isBlank s

theorem trimmed_nil : Trimmed [] := by
  constructor <;> intro c hc <;> simp at hc

theorem trimStart_eq_self {s : List Char} (h : ∀ c ∈ s.head?, isBlank c = false) : trimStart s = s :=
  dropWhile_eq_self h

theorem trimEnd_eq_self {s : List Char} (h : ∀ c ∈ s.getLast?, isBlank c = false) : trimEnd s = s :=
  dropEndWhile_eq_self h

theorem Bare.trim_eq {s : List Char} (h : Trimmed s) : trim s = s := h.trimMatching_eq

theorem trim_trimmed (s : List Char) : Trimmed (trim s) := trimMatching_bare isBlank s

theorem trim_isInfix (s : List Char) : trim s <:+: s := trimMatching_isInfix isBlank s

theorem length_trim_le (s : List Char) : (trim s).length ≤ s.length := (trim_isInfix s).length_le

theorem mem_trim {c : Char} {s : List Char} (h : c ∈ trim s) : c ∈ s := (trim_isInfix s).subset h

theorem Bare.append {p : Char → Bool} {a b : List Char} (m : List Char) (ha : Bare p a) (hb : Bare p b)
    (hane : a ≠ []) (hbne : b ≠ []) : Bare p (a ++ m ++ b) := by
  constructor
  · intro c hc
    apply ha.1 c
    rwa [List.append_assoc, List.head?_append_of_ne_nil _ hane] at hc
  · intro c hc
    apply hb.2 c
    rwa [List.getLast?_append_of_ne_nil _ hbne] at hc

theorem head?_trim_cons {c : Char} (s : List Char) (h : isBlank c = false) : (trim (c :: s)).head? = some c := by
  have hne : trimEnd (c :: s) ≠ [] := by
    rw [trimEnd, dropEndWhile_eq_rdropWhile, Ne, List.rdropWhile_eq_nil_iff]
    intro hall
    rw [hall c List.mem_cons_self] at h
    exact absurd h (by decide)
  obtain ⟨t, ht⟩ : trimEnd (c :: s) <+: c :: s := dropEndWhile_isPrefix isBlank _
  have hhead : (trimEnd (c :: s) ++ t).head? = some c := by rw [ht]; rfl
  rw [List.head?_append_of_ne_nil _ hne] at hhead
  rw [trim, trimStart, List.dropWhile_cons_of_neg (by simp [h])]
  exact hhead

theorem trimEnd_append_blank (s : List Char) {c : Char} (h : isBlank c = true) : trimEnd (s ++ [c]) = trimEnd s := by
  rw [trimEnd, trimEnd, dropEndWhile, List.reverse_append]
  change (List.dropWhile isBlank (c :: s.reverse)).reverse = _
  rw [List.dropWhile_cons_of_pos h]
  rfl

theorem trim_append_blank (s : List Char) {c : Char} (h : isBlank c = true) : trim (s ++ [c]) = trim s := by
  rw [trim, trimStart, List.dropWhile_append]
  split
  · rename_i hs
    rw [List.isEmpty_iff] at hs
    simp [trim, trimStart, hs, h]
  · exact trimEnd_append_blank _ h

theorem trimStart_cons_blank {c : Char} (s : List Char) (h : isBlank c = true) :
    trimStart (c :: s) = trimStart s := by
  rw [trimStart, List.dropWhile_cons_of_pos h, trimStart]

theorem trim_cons_blank {c : Char} (s : List Char) (h : isBlank c = true) : trim (c :: s) = trim s := by
  rw [trim, trimStart_cons_blank s h, trim]

theorem trim_blanks_append {a : List Char} (s : List Char) (h : ∀ c ∈ a, isBlank c = true) : trim (a ++ s) = trim s := by
  induction a with
  | nil => rfl
  | cons c a ih =>
      obtain ⟨hc, ha⟩ := List.forall_mem_cons.mp h
      rw [List.cons_append, trim_cons_blank _ hc, ih ha]

theorem stripPair_eq_some_iff {o c : Char} {s i : List Char} : stripPair o c s = some i ↔ s = o :: (i ++ [c]) := by
  cases s with
  | nil => simp [stripPair]
  | cons d s =>
      rw [stripPair]
      constructor
      · intro h
        split at h
        · rename_i hends
          obtain ⟨hd, hlast⟩ : d = o ∧ s.getLast? = some c := by simpa using hends
          obtain ⟨t, rfl⟩ := List.getLast?_eq_some_iff.mp hlast
          rw [List.dropLast_concat, Option.some.injEq] at h
          rw [hd, h]
        · cases h
      · intro h
        obtain ⟨rfl, rfl⟩ := List.cons.inj h
        simp

theorem stripPair_eq_none {o c : Char} {s : List Char} (h : s.head? ≠ some o) : stripPair o c s = none := by
  rw [Option.eq_none_iff_forall_ne_some]
  intro i hi
  rw [stripPair_eq_some_iff.mp hi] at h
  exact h rfl

/-- A text without its white space. -/
def ink (s : List Char) : List Char := s.filter (!isBlank ·)

theorem ink_append (s t : List Char) : ink (s ++ t) = ink s ++ ink t := List.filter_append s t

theorem ink_eq_nil_iff {s : List Char} : ink s = [] ↔ ∀ c ∈ s, isBlank c = true := by
  simp [ink]

theorem ink_cons_blank {c : Char} (s : List Char) (h : isBlank c = true) : ink (c :: s) = ink s := by
  simp [ink, h]

/-- A text and white space around it. -/
def Padded (inner s : List Char) : Prop :=
  ∃ a b, s = a ++ inner ++ b ∧ (∀ c ∈ a, isBlank c = true) ∧ ∀ c ∈ b, isBlank c = true

theorem Padded.refl (s : List Char) : Padded s s :=
  ⟨[], [], by rw [List.nil_append, List.append_nil], List.forall_mem_nil _, List.forall_mem_nil _⟩

theorem padded_trim (s : List Char) : Padded (trim s) s := by
  refine ⟨s.takeWhile isBlank, (trimStart s).rtakeWhile isBlank, ?_, fun c hc => List.mem_takeWhile_imp hc,
    fun c hc => List.mem_rtakeWhile_imp hc⟩
  have hend : trim s ++ (trimStart s).rtakeWhile isBlank = trimStart s := List.rdropWhile_append_rtakeWhile
  rw [List.append_assoc, hend]
  exact List.takeWhile_append_dropWhile.symm

theorem ink_trim (s : List Char) : ink (trim s) = ink s := by
  obtain ⟨a, b, hs, ha, hb⟩ := padded_trim s
  have hink : ink (a ++ trim s ++ b) = ink (trim s) := by
    rw [ink_append, ink_append, ink_eq_nil_iff.mpr ha, ink_eq_nil_iff.mpr hb, List.nil_append, List.append_nil]
  rw [← hink, ← hs]

theorem trim_eq_nil_iff {s : List Char} : trim s = [] ↔ ∀ c ∈ s, isBlank c = true := by
  rw [← ink_eq_nil_iff, ← ink_trim s]
  constructor
  · intro h
    rw [h]
    rfl
  · intro h
    cases htrim : trim s with
    | nil => rfl
    | cons c t =>
        have hc : isBlank c = false := (trim_trimmed s).1 c (by rw [htrim]; rfl)
        rw [htrim, ink_eq_nil_iff] at h
        rw [h c List.mem_cons_self] at hc
        cases hc

theorem trim_append_blanks {b : List Char} (s : List Char) (h : ∀ c ∈ b, isBlank c = true) :
    trim (s ++ b) = trim s := by
  induction b generalizing s with
  | nil => rw [List.append_nil]
  | cons c b ih =>
      obtain ⟨hc, hb⟩ := List.forall_mem_cons.mp h
      rw [List.append_cons, ih _ hb, trim_append_blank s hc]

theorem trim_trimStart (s : List Char) : trim (trimStart s) = trim s := by
  rw [trim, trimStart, trimStart, List.dropWhile_idempotent]
  rfl

theorem trim_trimEnd (s : List Char) : trim (trimEnd s) = trim s := by
  have hend : trimEnd s ++ s.rtakeWhile isBlank = s := List.rdropWhile_append_rtakeWhile
  have hblank : ∀ c ∈ s.rtakeWhile isBlank, isBlank c = true := fun c hc => List.mem_rtakeWhile_imp hc
  rw [← trim_append_blanks (trimEnd s) hblank, hend]

theorem trimEnd_append_of_ne_nil {t : List Char} (s : List Char) (h : trim t ≠ []) :
    trimEnd (s ++ t) = s ++ trimEnd t := by
  have hend : (t.reverse.dropWhile isBlank).isEmpty = false := by
    rw [Bool.eq_false_iff, Ne, List.isEmpty_iff, List.dropWhile_eq_nil_iff]
    intro hall
    exact h (trim_eq_nil_iff.mpr fun c hc => hall c (List.mem_reverse.mpr hc))
  rw [trimEnd, dropEndWhile, List.reverse_append, List.dropWhile_append, hend, if_neg Bool.false_ne_true,
    List.reverse_append, List.reverse_reverse]
  rfl

theorem Padded.trim_eq {t s : List Char} (h : Padded t s) (ht : Trimmed t) : trim s = t := by
  obtain ⟨a, b, rfl, ha, hb⟩ := h
  rw [trim_append_blanks _ hb, trim_blanks_append t ha, Bare.trim_eq ht]

theorem trimmed_pair {o c : Char} (i : List Char) (ho : isBlank o = false) (hc : isBlank c = false) :
    Trimmed (o :: (i ++ [c])) := by
  constructor
  · rintro d ⟨⟩
    exact ho
  · intro d hd
    rw [← List.cons_append, List.getLast?_concat] at hd
    cases hd
    exact hc

end BookCompiler.Text
