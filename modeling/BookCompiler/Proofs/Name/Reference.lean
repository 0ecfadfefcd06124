import BookCompiler.Name.Reference
import BookCompiler.Proofs.Text.Words

namespace BookCompiler.Name

open Text

/-- A name that a parameter may have. -/
def Valid (name : String) : Prop := faultOf name.toList = none ∧ isReserved name = false

instance (name : String) : Decidable (Valid name) := by
  unfold Valid
  infer_instance

theorem faultOf_eq_none {s : List Char} :
    faultOf s = none ↔ IsWord s ∧ s.all isWordChar = true ∧ (s.head?.map Char.isDigit).getD false = false := by
  rw [faultOf]
  split
  · rename_i h
    simp [IsWord, List.isEmpty_iff.mp h]
  · rename_i hne
    split
    · rename_i h
      obtain ⟨c, hc, hblank⟩ := List.any_eq_true.mp h
      simp only [reduceCtorEq, false_iff]
      rintro ⟨hword, -⟩
      rw [hword.2 c hc] at hblank
      exact absurd hblank (by decide)
    · rename_i h
      have hword : IsWord s := ⟨by simpa using hne, by simpa using h⟩
      split
      · rename_i hall
        simp only [reduceCtorEq, false_iff]
        rintro ⟨-, htrue, -⟩
        simp [htrue] at hall
      · rename_i hall
        split
        · rename_i hdigit
          simp [hdigit]
        · rename_i hdigit
          simpa [hword] using ⟨by simpa using hall, by simpa using hdigit⟩

theorem Valid.isWord {name : String} (h : Valid name) : IsWord name.toList := (faultOf_eq_none.mp h.1).1

theorem Valid.isWordChar {name : String} (h : Valid name) : ∀ c ∈ name.toList, Name.isWordChar c = true :=
  List.all_eq_true.mp (faultOf_eq_none.mp h.1).2.1

theorem Valid.not_mem {name : String} {c : Char} (h : Valid name) (hc : Name.isWordChar c = false) :
    c ∉ name.toList := by
  intro hmem
  rw [h.isWordChar c hmem] at hc
  exact absurd hc (by decide)

theorem isAlpha_iff {c : Char} :
    c.isAlpha = true ↔ (65 ≤ c.toNat ∧ c.toNat ≤ 90) ∨ (97 ≤ c.toNat ∧ c.toNat ≤ 122) := by
  have hupper : c.isUpper = true ↔ 65 ≤ c.toNat ∧ c.toNat ≤ 90 := by
    change decide (65 ≤ c.val ∧ c.val ≤ 90) = true ↔ _
    rw [decide_eq_true_eq, UInt32.le_iff_toNat_le, UInt32.le_iff_toNat_le]
    rfl
  have hlower : c.isLower = true ↔ 97 ≤ c.toNat ∧ c.toNat ≤ 122 := by
    change (decide (97 ≤ c.val) && decide (c.val ≤ 122)) = true ↔ _
    rw [Bool.and_eq_true, decide_eq_true_eq, decide_eq_true_eq, UInt32.le_iff_toNat_le, UInt32.le_iff_toNat_le]
    rfl
  rw [← hupper, ← hlower]
  exact Bool.or_eq_true_iff

theorem isBlank_of_isWordChar {c : Char} (h : isWordChar c = true) : isBlank c = false := by
  by_cases hc : c = '_'
  · rw [hc]
    decide
  · simp only [isWordChar, Char.isAlphanum, isAlpha_iff, Char.isDigit, hc,
      UInt32.le_iff_toNat_le, ge_iff_le, Char.toNat_val, UInt32.reduceToNat, Char.reduceVal, Bool.or_eq_true,
      Bool.and_eq_true, decide_eq_true_eq, decide_false, Bool.or_false] at h
    simp only [isBlank, Bool.or_eq_false_iff, Bool.and_eq_false_iff, decide_eq_false_iff_not, beq_eq_false_iff_ne]
    omega

def Leads (name : String) : Prop := ∃ c s, name.toList = c :: s ∧ c.isDigit = false

theorem faultOf_eq_none_iff {name : String} :
    faultOf name.toList = none ↔ Leads name ∧ ∀ c ∈ name.toList, isWordChar c = true := by
  rw [faultOf_eq_none]
  constructor
  · rintro ⟨hword, hall, hdigit⟩
    obtain ⟨c, s, hs⟩ := List.exists_cons_of_ne_nil hword.1
    rw [hs] at hdigit
    exact ⟨⟨c, s, hs, hdigit⟩, List.all_eq_true.mp hall⟩
  · rintro ⟨⟨c, s, hs, hdigit⟩, hall⟩
    have hword : IsWord name.toList := ⟨by simp [hs], fun c hc => isBlank_of_isWordChar (hall c hc)⟩
    exact ⟨hword, List.all_eq_true.mpr hall, by rw [hs]; exact hdigit⟩

/-- A letter or an underscore, and after it letters, digits and underscores. -/
def Mentionable (name : String) : Prop :=
  ∃ c s, name.toList = c :: s ∧ (c.isAlpha = true ∨ c = '_') ∧ ∀ d ∈ s, d.isAlphanum = true ∨ d = '_'

theorem isWordChar_iff {c : Char} : isWordChar c = true ↔ c.isAlphanum = true ∨ c = '_' := by
  rw [isWordChar, Bool.or_eq_true, decide_eq_true_eq]

theorem mentionable_iff {name : String} :
    Mentionable name ↔ Leads name ∧ ∀ c ∈ name.toList, isWordChar c = true := by
  have hfirst (c : Char) : (c.isAlpha = true ∨ c = '_') ↔ c.isDigit = false ∧ isWordChar c = true := by
    rw [isWordChar_iff, Char.isAlphanum, Bool.or_eq_true]
    constructor
    · rintro (halpha | rfl)
      · refine ⟨?_, Or.inl (Or.inl halpha)⟩
        rw [isAlpha_iff] at halpha
        simp only [Char.isDigit, Bool.and_eq_false_iff, decide_eq_false_iff_not, ge_iff_le,
          UInt32.le_iff_toNat_le, Char.toNat_val, UInt32.reduceToNat, Char.reduceVal]
        omega
      · decide
    · rintro ⟨hdigit, (halpha | hd) | hline⟩
      · exact Or.inl halpha
      · rw [hdigit] at hd
        cases hd
      · exact Or.inr hline
  constructor
  · rintro ⟨c, s, hname, hc, hs⟩
    obtain ⟨hdigit, hword⟩ := (hfirst c).mp hc
    refine ⟨⟨c, s, hname, hdigit⟩, ?_⟩
    rw [hname]
    exact List.forall_mem_cons.mpr ⟨hword, fun d hd => isWordChar_iff.mpr (hs d hd)⟩
  · rintro ⟨⟨c, s, hname, hdigit⟩, hword⟩
    rw [hname] at hword
    obtain ⟨hc, hs⟩ := List.forall_mem_cons.mp hword
    exact ⟨c, s, hname, (hfirst c).mpr ⟨hdigit, hc⟩, fun d hd => isWordChar_iff.mp (hs d hd)⟩

theorem valid_iff {name : String} :
    Valid name ↔ Leads name ∧ (∀ c ∈ name.toList, isWordChar c = true) ∧ isReserved name = false := by
  rw [Valid, faultOf_eq_none_iff, and_assoc]

theorem valid_of_readReference {raw name : String} (h : readReference raw = .ok name) : Valid name := by
  rw [readReference] at h
  dsimp only at h
  split at h
  · cases h
  · split at h
    · cases h
    · rename_i hfault
      split at h
      · cases h
      · rename_i hreserved
        obtain rfl := Except.ok.inj h
        exact ⟨by rwa [String.toList_ofList], by simpa using hreserved⟩

theorem untick_of_head {s : List Char} (hs : Trimmed s) (h : s.head? ≠ some '\x60') : untick s = s := by
  rw [untick, hs.trim_eq, stripPair_eq_none h]

theorem readReference_of_unbrace {raw name : String} (hname : Valid name) (hraw : Trimmed raw.toList)
    (hhead : raw.toList.head? ≠ some '\x60')
    (hbraces : (raw.toList.head? == some '\x7b') = (raw.toList.getLast? == some '\x7d'))
    (hunbrace : unbrace raw.toList = name.toList) : readReference raw = .ok name := by
  have hfault := hname.1
  have hreserved := hname.2
  rw [readReference, untick_of_head hraw hhead]
  simp [hbraces, hunbrace, hfault, hreserved]

theorem readReference_self {name : String} (h : Valid name) : readReference name = .ok name := by
  have hopen : name.toList.head? ≠ some '\x7b' := fun e => h.not_mem rfl (List.mem_of_mem_head? e)
  have hclose : name.toList.getLast? ≠ some '\x7d' := fun e => h.not_mem rfl (List.mem_of_mem_getLast? e)
  apply readReference_of_unbrace h h.isWord.trimmed
  · exact fun e => h.not_mem (by decide) (List.mem_of_mem_head? e)
  · rw [beq_eq_false_iff_ne.mpr hopen, beq_eq_false_iff_ne.mpr hclose]
  · rw [unbrace, stripPair_eq_none hopen]
    exact h.isWord.trimmed.trim_eq

theorem toList_braced (name : String) : (braced name).toList = '\x7b' :: (name.toList ++ ['\x7d']) := by
  rw [braced, String.toList_append, String.toList_append]
  rfl

theorem braced_isWord {name : String} (h : Valid name) : IsWord (braced name).toList := by
  refine ⟨by simp [toList_braced], ?_⟩
  intro c hc
  rw [toList_braced, List.mem_cons, List.mem_append, List.mem_singleton] at hc
  rcases hc with rfl | hc | rfl
  · decide
  · exact h.isWord.2 c hc
  · decide

theorem readReference_braced {name : String} (h : Valid name) : readReference (braced name) = .ok name := by
  apply readReference_of_unbrace h (braced_isWord h).trimmed
  · simp [toList_braced]
  · rw [toList_braced, ← List.cons_append, List.getLast?_concat]
    rfl
  · rw [unbrace, stripPair_eq_some_iff.mpr (toList_braced name)]
    exact h.isWord.trimmed.trim_eq

end BookCompiler.Name
