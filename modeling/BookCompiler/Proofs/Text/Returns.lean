import BookCompiler.Proofs.Text.Lines

namespace BookCompiler.Text

def dropReturn (l : List Char) : List Char := if l.getLast? = some '\r' then l.dropLast else l

section Line

variable {l : List Char}

theorem dropReturn_eq_self (h : l.getLast? ≠ some '\r') : dropReturn l = l := if_neg h

theorem dropReturn_concat (l : List Char) : dropReturn (l ++ ['\r']) = l := by
  rw [dropReturn, if_pos List.getLast?_concat, List.dropLast_concat]

theorem dropReturn_eq_self_iff {l : List Char} : dropReturn l = l ↔ l.getLast? ≠ some '\r' := by
  refine ⟨fun h hlast => ?_, dropReturn_eq_self⟩
  obtain ⟨m, rfl⟩ := List.getLast?_eq_some_iff.mp hlast
  rw [dropReturn_concat] at h
  simp at h

theorem map_dropReturn_eq_self_iff {ls : List (List Char)} :
    ls.map dropReturn = ls ↔ ∀ l ∈ ls, l.getLast? ≠ some '\r' := by
  have hmap := List.map_inj_left (l := ls) (f := dropReturn) (g := id)
  rw [List.map_id] at hmap
  exact hmap.trans (forall₂_congr fun l _ => dropReturn_eq_self_iff)

theorem dropReturn_of_trimmed {l : List Char} (h : Trimmed l) : dropReturn l = l :=
  dropReturn_eq_self fun hlast => absurd (h.2 _ hlast) (by decide)

theorem exists_eq_dropReturn (l : List Char) : ∃ b, l = dropReturn l ++ b ∧ ∀ c ∈ b, isBlank c = true := by
  by_cases h : l.getLast? = some '\r'
  · obtain ⟨m, rfl⟩ := List.getLast?_eq_some_iff.mp h
    exact ⟨['\r'], by rw [dropReturn_concat], List.forall_mem_singleton.mpr rfl⟩
  · exact ⟨[], by rw [dropReturn_eq_self h, List.append_nil], List.forall_mem_nil _⟩

theorem trim_dropReturn (l : List Char) : trim (dropReturn l) = trim l := by
  obtain ⟨b, hl, hb⟩ := exists_eq_dropReturn l
  rw [← trim_append_blanks (dropReturn l) hb, ← hl]

theorem dropReturn_isPrefix (l : List Char) : dropReturn l <+: l := by
  obtain ⟨b, hl, -⟩ := exists_eq_dropReturn l
  exact ⟨b, hl.symm⟩

theorem not_mem_dropReturn {c : Char} (h : c ∉ l) : c ∉ dropReturn l := fun hmem => h ((dropReturn_isPrefix l).subset hmem)

theorem lines_cons_ne_nil (c : Char) (s : List Char) : lines (c :: s) ≠ [] := by
  intro h
  unfold lines at h
  split at h
  · rename_i heq
    cases heq
  · cases h
  · cases h
  · split at h <;> cases h

theorem lines_append_line (s : List Char) (h : '\n' ∉ l) : lines (l ++ '\n' :: s) = dropReturn l :: lines s := by
  by_cases hreturn : l.getLast? = some '\r'
  · obtain ⟨m, rfl⟩ := List.getLast?_eq_some_iff.mp hreturn
    have hm : '\n' ∉ m := fun hmem => h (List.mem_append_left _ hmem)
    rw [dropReturn_concat, List.append_assoc]
    exact lines_append_return s hm
  · rw [dropReturn_eq_self hreturn, lines_append s h hreturn]

theorem head?_lines_append {l : List Char} (s t : List Char) (h : '\n' ∉ l) :
    (lines (l ++ '\n' :: s)).head? = (lines (l ++ '\n' :: t)).head? := by
  rw [lines_append_line s h, lines_append_line t h, List.head?_cons, List.head?_cons]

end Line

section Lines

variable {ls : List (List Char)} {l : List Char}

/-- Lines that are written and read again have lost their carriage returns, the last one apart. -/
theorem lines_joinLines_concat (h : ∀ x ∈ ls, '\n' ∉ x) (hl : '\n' ∉ l) :
    lines (joinLines (ls ++ [l])) = ls.map dropReturn ++ if l = [] then [] else [l] := by
  induction ls with
  | nil =>
      rw [List.nil_append, joinLines_singleton]
      split
      · rename_i hnil
        rw [hnil]
        rfl
      · rename_i hne
        exact lines_of_not_mem hl hne
  | cons x ls ih =>
      obtain ⟨hx, hls⟩ := List.forall_mem_cons.mp h
      rw [List.cons_append, joinLines_cons x (by simp), lines_append_line _ hx, ih hls]
      rfl

/-- Lines of which the last one does not end with a blank. -/
def EndFirmly (ls : List (List Char)) : Prop := ∃ init l c, ls = init ++ [l ++ [c]] ∧ isBlank c = false

theorem endFirmly_singleton {l : List Char} (h : Trimmed l) (hne : l ≠ []) : EndFirmly [l] := by
  obtain ⟨l, c, rfl⟩ := (List.eq_nil_or_concat' l).resolve_left hne
  exact ⟨[], l, c, rfl, h.2 c List.getLast?_concat⟩

theorem EndFirmly.cons (h : EndFirmly ls) : EndFirmly (l :: ls) := by
  obtain ⟨init, m, c, rfl, hc⟩ := h
  exact ⟨l :: init, m, c, rfl, hc⟩

theorem EndFirmly.append (h : EndFirmly ls) (ms : List (List Char)) : EndFirmly (ms ++ ls) := by
  induction ms with
  | nil => exact h
  | cons m ms ih => exact ih.cons

theorem EndFirmly.lines_joinLines (h : EndFirmly ls) (hlines : ∀ x ∈ ls, '\n' ∉ x) :
    lines (joinLines ls) = ls.map dropReturn := by
  obtain ⟨init, m, c, rfl, hc⟩ := h
  obtain ⟨hinit, hlast⟩ := List.forall_mem_append.mp hlines
  have hfirm : dropReturn (m ++ [c]) = m ++ [c] := by
    apply dropReturn_eq_self
    rw [List.getLast?_concat]
    rintro ⟨⟩
    cases hc
  rw [lines_joinLines_concat hinit (hlast _ List.mem_cons_self), if_neg (by simp), List.map_append, List.map_singleton,
    hfirm]

theorem joinLines_concat_append (ls : List (List Char)) (l a : List Char) :
    joinLines (ls ++ [l]) ++ a = joinLines (ls ++ [l ++ a]) := by
  by_cases hls : ls = []
  · rw [hls, List.nil_append, List.nil_append, joinLines_singleton, joinLines_singleton]
  · rw [joinLines_append hls (by simp), joinLines_append hls (by simp), joinLines_singleton, joinLines_singleton,
      List.append_assoc, List.cons_append]

theorem EndFirmly.getLast?_joinLines (h : EndFirmly ls) : ∀ c ∈ (joinLines ls).getLast?, isBlank c = false := by
  obtain ⟨init, m, c, rfl, hc⟩ := h
  rw [← joinLines_concat_append, List.getLast?_concat]
  rintro d ⟨⟩
  exact hc

end Lines

section Text

variable {s : List Char}

theorem exists_joinLines_append (s : List Char) : ∃ ls l, (∀ x ∈ ls, '\n' ∉ x) ∧ '\n' ∉ l ∧
    ∀ a, s ++ a = joinLines (ls ++ [l ++ a]) := by
  obtain ⟨ls, hls, hlines, rfl⟩ := exists_joinLines s
  obtain ⟨ls, l, rfl⟩ := (List.eq_nil_or_concat' ls).resolve_left hls
  obtain ⟨hinit, hl⟩ := List.forall_mem_append.mp hlines
  exact ⟨ls, l, hinit, hl l List.mem_cons_self, joinLines_concat_append ls l⟩

theorem endFirmly_lines (h : Trimmed s) (hne : s ≠ []) : EndFirmly (lines s) := by
  obtain ⟨s, c, rfl⟩ := (List.eq_nil_or_concat' s).resolve_left hne
  have hc : isBlank c = false := h.2 c List.getLast?_concat
  have hfeed : c ≠ '\n' := by
    rintro rfl
    cases hc
  obtain ⟨ls, l, hls, hl, hjoin⟩ := exists_joinLines_append s
  have hlc : '\n' ∉ l ++ [c] := by simpa [hl] using hfeed.symm
  rw [hjoin, lines_joinLines_concat hls hlc, if_neg (by simp)]
  exact ⟨_, l, c, rfl, hc⟩

theorem trim_joinLines_concat_append {b : List Char} (ls : List (List Char)) (l : List Char) (h : ∀ c ∈ b, isBlank c = true) :
    trim (joinLines (ls ++ [l ++ b])) = trim (joinLines (ls ++ [l])) := by
  rw [← joinLines_concat_append, trim_append_blanks _ h]

theorem trim_joinLines_lines_concat {ls : List (List Char)} {l : List Char} (h : ∀ x ∈ ls, '\n' ∉ x) (hl : '\n' ∉ l) :
    trim (joinLines (lines (joinLines (ls ++ [l])))) = trim (joinLines (ls.map dropReturn ++ [l])) := by
  rw [lines_joinLines_concat h hl]
  split
  · rename_i hnil
    rw [hnil, List.append_nil, trim_joinLines_concat_nil]
  · rfl

theorem trim_joinLines_dropReturn {ls : List (List Char)} (h : ∀ x ∈ ls, '\n' ∉ x) :
    trim (joinLines (ls.map dropReturn)) = trim (joinLines (lines (joinLines ls))) := by
  rcases List.eq_nil_or_concat' ls with rfl | ⟨ls, l, rfl⟩
  · rfl
  · obtain ⟨hls, hl⟩ := List.forall_mem_append.mp h
    obtain ⟨b, hb, hblank⟩ := exists_eq_dropReturn l
    rw [trim_joinLines_lines_concat hls (hl l List.mem_cons_self), List.map_append, List.map_singleton,
      ← trim_joinLines_concat_append _ (dropReturn l) hblank, ← hb]

theorem trim_joinLines_lines_cons {c : Char} (s : List Char) (h : isBlank c = true) :
    trim (joinLines (lines (c :: s))) = trim (joinLines (lines s)) := by
  by_cases hfeed : c = '\n'
  · rw [hfeed]
    exact trim_joinLines_cons_nil (lines s)
  · by_cases hreturn : ∃ t, c = '\r' ∧ s = '\n' :: t
    · obtain ⟨t, rfl, rfl⟩ := hreturn
      rfl
    · rw [lines.eq_4 _ _ hfeed fun t hc ht => hreturn ⟨t, hc, ht⟩]
      cases lines s with
      | nil => exact trim_cons_blank [] h
      | cons l ls => exact (congrArg trim (cons_joinLines c l ls)).symm.trans (trim_cons_blank _ h)

theorem trim_joinLines_lines_append {c : Char} (s : List Char) (h : isBlank c = true) :
    trim (joinLines (lines (s ++ [c]))) = trim (joinLines (lines s)) := by
  obtain ⟨ls, l, hls, hl, hjoin⟩ := exists_joinLines_append s
  have hs := hjoin []
  rw [List.append_nil, List.append_nil] at hs
  by_cases hc : c = '\n'
  · have hfeed : s ++ [c] = joinLines ((ls ++ [l]) ++ [[]]) := by
      rw [hs, hc, joinLines_append (List.concat_ne_nil l ls) (List.cons_ne_nil _ _), joinLines_singleton]
    have hlast : ∀ x ∈ ls ++ [l], '\n' ∉ x := List.forall_mem_append.mpr ⟨hls, by simpa using hl⟩
    rw [hfeed, trim_joinLines_lines_concat hlast (by simp), trim_joinLines_concat_nil, trim_joinLines_dropReturn hlast, hs]
  · have hlc : '\n' ∉ l ++ [c] := by simpa [hl] using Ne.symm hc
    rw [hjoin, trim_joinLines_lines_concat hls hlc, trim_joinLines_concat_append _ _ (by simpa using h), hs,
      trim_joinLines_lines_concat hls hl]

theorem exists_joinLines_lines {c : Char} (s : List Char) (h : isBlank c = false) :
    ∃ t, joinLines (lines (c :: s)) = c :: t := by
  obtain ⟨l, ls, hlines⟩ := exists_lines_cons s h
  exact ⟨joinLines (l :: ls), by rw [hlines, cons_joinLines]⟩

theorem trimmed_joinLines_lines (h : Trimmed s) : Trimmed (joinLines (lines s)) := by
  cases s with
  | nil => exact trimmed_nil
  | cons c s =>
      obtain ⟨t, ht⟩ := exists_joinLines_lines s (h.1 c rfl)
      refine ⟨?_, (endFirmly_lines h (List.cons_ne_nil c s)).getLast?_joinLines⟩
      rw [ht]
      exact h.1

theorem joinLines_lines_ne_nil (h : Trimmed s) (hne : lines s ≠ []) : joinLines (lines s) ≠ [] := by
  cases s with
  | nil => exact absurd rfl hne
  | cons c s =>
      obtain ⟨t, ht⟩ := exists_joinLines_lines s (h.1 c rfl)
      rw [ht]
      exact List.cons_ne_nil c t

theorem lines_joinLines_lines (h : Trimmed s) : lines (joinLines (lines s)) = (lines s).map dropReturn := by
  by_cases hne : s = []
  · rw [hne]
    rfl
  · exact (endFirmly_lines h hne).lines_joinLines fun _ => not_mem_of_mem_lines

/-- It is the same to trim a text before or after its lines are joined anew. -/
theorem trim_joinLines_lines (s : List Char) : trim (joinLines (lines s)) = joinLines (lines (trim s)) := by
  obtain ⟨a, b, hs, ha, hb⟩ := padded_trim s
  have hstart (t : List Char) : trim (joinLines (lines (a ++ t))) = trim (joinLines (lines t)) := by
    clear hs
    induction a with
    | nil => rfl
    | cons c a ih =>
        obtain ⟨hc, ha⟩ := List.forall_mem_cons.mp ha
        rw [List.cons_append, trim_joinLines_lines_cons _ hc, ih ha]
  have hend (t : List Char) : trim (joinLines (lines (t ++ b))) = trim (joinLines (lines t)) := by
    clear hs
    induction b generalizing t with
    | nil => rw [List.append_nil]
    | cons c b ih =>
        obtain ⟨hc, hb⟩ := List.forall_mem_cons.mp hb
        rw [List.append_cons, ih hb, trim_joinLines_lines_append t hc]
  calc trim (joinLines (lines s))
      = trim (joinLines (lines (a ++ trim s ++ b))) := by rw [← hs]
    _ = trim (joinLines (lines (trim s))) := by rw [hend, hstart]
    _ = joinLines (lines (trim s)) := (trimmed_joinLines_lines (trim_trimmed s)).trim_eq

theorem joinLines_lines_sublist (s : List Char) : (joinLines (lines s)).Sublist s := by
  have hfeed (t : List Char) (ht : (joinLines (lines t)).Sublist t) :
      (joinLines ([] :: lines t)).Sublist ('\n' :: t) := by
    by_cases hnil : lines t = []
    · rw [hnil]
      exact List.nil_sublist _
    · rw [joinLines_cons [] hnil]
      exact ht.cons_cons '\n'
  fun_induction lines s with
  | case1 => exact List.Sublist.refl _
  | case2 s ih => exact hfeed s ih
  | case3 s ih => exact (hfeed s ih).cons '\r'
  | case4 c s _ _ hlines ih =>
      rw [joinLines_singleton]
      exact (List.nil_sublist s).cons_cons c
  | case5 c s _ _ l ls hlines ih =>
      rw [hlines] at ih
      rw [← cons_joinLines]
      exact ih.cons_cons c

theorem joinLines_dropReturn_sublist (ls : List (List Char)) :
    (joinLines (ls.map dropReturn)).Sublist (joinLines ls) := by
  induction ls with
  | nil => exact List.Sublist.refl _
  | cons l ls ih =>
      by_cases hls : ls = []
      · rw [hls, List.map_singleton, joinLines_singleton, joinLines_singleton]
        exact (dropReturn_isPrefix l).sublist
      · rw [List.map_cons, joinLines_cons _ (by simpa using hls), joinLines_cons _ hls]
        exact (dropReturn_isPrefix l).sublist.append (ih.cons_cons '\n')

theorem splitOn_eq_lines {s : List Char} (h : '\r' ∉ s) : s.splitOn '\n' = lines s ∨ s.splitOn '\n' = lines s ++ [[]] := by
  obtain ⟨init, l, hsplit⟩ := (List.eq_nil_or_concat' (s.splitOn '\n')).resolve_left (splitOn_ne_nil s)
  have hisLine : ∀ x ∈ init ++ [l], IsLine x := fun x hx => isLine_of_mem_splitOn h (hsplit ▸ hx)
  obtain ⟨hinit, hlast⟩ := List.forall_mem_append.mp hisLine
  have hkept : init.map dropReturn = init := map_dropReturn_eq_self_iff.mpr fun x hx => (hinit x hx).2
  have hlines : lines s = init ++ if l = [] then [] else [l] := by
    rw [← joinLines_splitOn s, hsplit, lines_joinLines_concat (fun x hx => (hinit x hx).1) (hlast l (by simp)).1, hkept]
  rw [hsplit, hlines]
  split
  · rename_i hl
    exact Or.inr (by rw [hl, List.append_nil])
  · exact Or.inl rfl

end Text

end BookCompiler.Text
