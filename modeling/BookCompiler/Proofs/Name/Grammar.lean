import BookCompiler.Proofs.Name.Reference

namespace BookCompiler.Name

open Text

/-- The ways to refer to a parameter, with white space around each layer. -/
inductive Refers (name : List Char) : List Char → Prop
  | bare {s : List Char} (h : Padded name s) : Refers name s
  | curly {i s : List Char} (hi : Padded name i) (h : Padded ('\x7b' :: (i ++ ['\x7d'])) s) : Refers name s
  | ticked {i s : List Char} (hi : Padded name i) (h : Padded ('\x60' :: (i ++ ['\x60'])) s) : Refers name s
  | curlyTicked {i j s : List Char} (hi : Padded name i) (hj : Padded ('\x7b' :: (i ++ ['\x7d'])) j)
      (h : Padded ('\x60' :: (j ++ ['\x60'])) s) : Refers name s

def Braces (name s : List Char) : Prop :=
  (s.head? == some '\x7b') = (s.getLast? == some '\x7d') ∧ unbrace s = name

theorem faultOf_eq_none_iff_mentionable {name : String} : faultOf name.toList = none ↔ Mentionable name :=
  faultOf_eq_none_iff.trans mentionable_iff.symm

section Layers

variable {name : String} {s t : List Char}

theorem Mentionable.not_mem (h : Mentionable name) {c : Char} (hc : isWordChar c = false) : c ∉ name.toList := by
  intro hmem
  rw [(mentionable_iff.mp h).2 c hmem] at hc
  cases hc

theorem Mentionable.trimmed (h : Mentionable name) : Trimmed name.toList :=
  (faultOf_eq_none.mp (faultOf_eq_none_iff_mentionable.mpr h)).1.trimmed

theorem untick_eq_iff (ht : Trimmed t) (hhead : t.head? ≠ some '\x60') :
    untick s = t ↔ Padded t s ∨ ∃ i, Padded t i ∧ Padded ('\x60' :: (i ++ ['\x60'])) s := by
  rw [untick]
  constructor
  · intro h
    split at h
    · rename_i i hstrip
      refine Or.inr ⟨i, h ▸ padded_trim i, ?_⟩
      rw [← stripPair_eq_some_iff.mp hstrip]
      exact padded_trim s
    · exact Or.inl (h ▸ padded_trim s)
  · rintro (h | ⟨i, hi, h⟩)
    · rw [h.trim_eq ht, stripPair_eq_none hhead]
    · rw [h.trim_eq (trimmed_pair i rfl rfl), stripPair_eq_some_iff.mpr rfl]
      exact hi.trim_eq ht

theorem braces_iff (hname : Mentionable name) (hs : Trimmed s) :
    Braces name.toList s ↔ s = name.toList ∨ ∃ i, Padded name.toList i ∧ s = '\x7b' :: (i ++ ['\x7d']) := by
  rw [Braces, unbrace]
  constructor
  · rintro ⟨-, h⟩
    cases hstrip : stripPair '\x7b' '\x7d' s with
    | none =>
        rw [hstrip, Option.getD_none, hs.trim_eq] at h
        exact Or.inl h
    | some i =>
        rw [hstrip, Option.getD_some] at h
        exact Or.inr ⟨i, h ▸ padded_trim i, stripPair_eq_some_iff.mp hstrip⟩
  · rintro (rfl | ⟨i, hi, rfl⟩)
    · have hopen : name.toList.head? ≠ some '\x7b' := fun e => hname.not_mem rfl (List.mem_of_mem_head? e)
      have hclose : name.toList.getLast? ≠ some '\x7d' := fun e => hname.not_mem rfl (List.mem_of_mem_getLast? e)
      rw [stripPair_eq_none hopen, beq_eq_false_iff_ne.mpr hopen, beq_eq_false_iff_ne.mpr hclose]
      exact ⟨rfl, hs.trim_eq⟩
    · rw [stripPair_eq_some_iff.mpr rfl, ← List.cons_append, List.getLast?_concat]
      exact ⟨rfl, hi.trim_eq hname.trimmed⟩

theorem trimmed_untick (s : List Char) : Trimmed (untick s) := by
  rw [untick]
  split <;> exact trim_trimmed _

/-- The layers are taken off in the order in which they can be put on. -/
theorem braces_untick_iff (hname : Mentionable name) : Braces name.toList (untick s) ↔ Refers name.toList s := by
  have hhead : name.toList.head? ≠ some '\x60' := fun e => hname.not_mem rfl (List.mem_of_mem_head? e)
  have hcurly (i : List Char) : Trimmed ('\x7b' :: (i ++ ['\x7d'])) := trimmed_pair i rfl rfl
  rw [braces_iff hname (trimmed_untick s), untick_eq_iff hname.trimmed hhead]
  constructor
  · rintro ((h | ⟨i, hi, h⟩) | ⟨i, hi, h⟩)
    · exact .bare h
    · exact .ticked hi h
    · rcases (untick_eq_iff (hcurly i) (by simp)).mp h with h | ⟨j, hj, h⟩
      · exact .curly hi h
      · exact .curlyTicked hi hj h
  · intro h
    cases h with
    | bare h => exact Or.inl (Or.inl h)
    | ticked hi h => exact Or.inl (Or.inr ⟨_, hi, h⟩)
    | curly hi h => exact Or.inr ⟨_, hi, (untick_eq_iff (hcurly _) (by simp)).mpr (Or.inl h)⟩
    | curlyTicked hi hj h => exact Or.inr ⟨_, hi, (untick_eq_iff (hcurly _) (by simp)).mpr (Or.inr ⟨_, hj, h⟩)⟩

end Layers

section Reading

variable {raw name : String}

theorem mentionable_of_isReserved (h : isReserved name = true) : Mentionable name := by
  have hall : ∀ name ∈ reservedNames, faultOf name.toList = none := by decide
  exact faultOf_eq_none_iff_mentionable.mp (hall name (List.contains_iff_mem.mp h))

theorem readReference_of_refers (hname : Mentionable name) (h : Refers name.toList raw.toList) :
    readReference raw = if isReserved name then .error (.reservedName name) else .ok name := by
  obtain ⟨hbalanced, hunbrace⟩ := (braces_untick_iff hname).mpr h
  have hfault := faultOf_eq_none_iff_mentionable.mpr hname
  rw [readReference]
  simp [hbalanced, hunbrace, hfault]

theorem exists_refers (h : ∀ fault, readReference raw ≠ .error (.invalidName raw fault)) :
    ∃ name : String, Mentionable name ∧ Refers name.toList raw.toList := by
  rw [readReference] at h
  dsimp only at h
  split at h
  · exact absurd rfl (h _)
  · rename_i hbalanced
    split at h
    · exact absurd rfl (h _)
    · rename_i hfault
      have hname : Mentionable (String.ofList (unbrace (untick raw.toList))) :=
        faultOf_eq_none_iff_mentionable.mp (by rwa [String.toList_ofList])
      exact ⟨_, hname, (braces_untick_iff hname).mp ⟨by simpa using hbalanced, String.toList_ofList.symm⟩⟩

theorem readReference_eq_ok_iff : readReference raw = .ok name ↔
    Mentionable name ∧ isReserved name = false ∧ Refers name.toList raw.toList := by
  constructor
  · intro h
    obtain ⟨n, hn, hrefers⟩ := exists_refers fun fault hfault => by cases h.symm.trans hfault
    rw [readReference_of_refers hn hrefers] at h
    split at h
    · cases h
    · rename_i hreserved
      cases h
      exact ⟨hn, by simpa using hreserved, hrefers⟩
  · rintro ⟨hname, hreserved, hrefers⟩
    rw [readReference_of_refers hname hrefers, hreserved, if_neg Bool.false_ne_true]

theorem readReference_eq_reserved_iff : readReference raw = .error (.reservedName name) ↔
    isReserved name = true ∧ Refers name.toList raw.toList := by
  constructor
  · intro h
    obtain ⟨n, hn, hrefers⟩ := exists_refers fun fault hfault => by cases h.symm.trans hfault
    rw [readReference_of_refers hn hrefers] at h
    split at h
    · rename_i hreserved
      cases h
      exact ⟨hreserved, hrefers⟩
    · cases h
  · rintro ⟨hreserved, hrefers⟩
    rw [readReference_of_refers (mentionable_of_isReserved hreserved) hrefers, if_pos hreserved]

/-- What is read as a reference to a parameter is exactly what the grammar has for its name, and a name that is read
from anything is read from itself, in braces and in braces and backticks as well. -/
theorem readReference_iff_refers (raw name : String) :
    (readReference raw = .ok name ↔
      Mentionable name ∧ isReserved name = false ∧ Refers name.toList raw.toList) ∧
    (readReference raw = .ok name → readReference name = .ok name ∧ readReference (braced name) = .ok name ∧
      readReference ("`" ++ braced name ++ "`") = .ok name) ∧
    (readReference raw = .error (.reservedName name) ↔ isReserved name = true ∧ Refers name.toList raw.toList) := by
  refine ⟨readReference_eq_ok_iff, fun h => ?_, readReference_eq_reserved_iff⟩
  obtain ⟨hname, hreserved, -⟩ := readReference_eq_ok_iff.mp h
  have hcurly : Padded ('\x7b' :: (name.toList ++ ['\x7d'])) (braced name).toList := by
    rw [toList_braced]
    exact .refl _
  have hticked : ("`" ++ braced name ++ "`").toList = '\x60' :: ((braced name).toList ++ ['\x60']) := by
    rw [String.toList_append, String.toList_append]
    rfl
  refine ⟨?_, ?_, ?_⟩
  · exact readReference_eq_ok_iff.mpr ⟨hname, hreserved, .bare (.refl _)⟩
  · exact readReference_eq_ok_iff.mpr ⟨hname, hreserved, .curly (.refl _) hcurly⟩
  · refine readReference_eq_ok_iff.mpr ⟨hname, hreserved, .curlyTicked (.refl _) hcurly ?_⟩
    rw [hticked]
    exact .refl _

theorem readReference_iff_refers_topic :
    readReference " `\t\x7b topic\n\x7d ` " = .ok "topic" ∧ Refers "topic".toList " `\t\x7b topic\n\x7d ` ".toList ∧
      readReference "`\x7btopic\x7d`" = .ok "topic" := by
  have h : readReference " `\t\x7b topic\n\x7d ` " = .ok "topic" := by decide
  obtain ⟨hok, hagain, -⟩ := readReference_iff_refers " `\t\x7b topic\n\x7d ` " "topic"
  exact ⟨h, (hok.mp h).2.2, (hagain h).2.2⟩

end Reading

end BookCompiler.Name
