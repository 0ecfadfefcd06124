import BookCompiler.Proofs.Text.Trim

namespace BookCompiler.Text

theorem splitOnce_eq_none_iff {p : Char → Bool} {s : List Char} : splitOnce p s = none ↔ ∀ c ∈ s, p c = false := by
  induction s with
  | nil => simp [splitOnce]
  | cons c s ih => cases hc : p c <;> simp [splitOnce, hc, ih]

theorem splitOnce_append {p : Char → Bool} {c : Char} {s : List Char} (t : List Char)
    (h : ∀ d ∈ s, p d = false) (hc : p c = true) : splitOnce p (s ++ c :: t) = some (s, t) := by
  induction s with
  | nil => simp [splitOnce, hc]
  | cons d s ih =>
      have hrest := ih fun x hx => h x (List.mem_cons_of_mem d hx)
      simp [splitOnce, h d List.mem_cons_self, hrest]

theorem splitOnce_eq_some {p : Char → Bool} {s a b : List Char} (h : splitOnce p s = some (a, b)) :
    ∃ c, p c = true ∧ s = a ++ c :: b := by
  induction s generalizing a with
  | nil => cases h
  | cons d s ih =>
      rw [splitOnce] at h
      split at h
      · rename_i hd
        cases h
        exact ⟨d, hd, rfl⟩
      · obtain ⟨⟨a', b'⟩, hs, hab⟩ := Option.map_eq_some_iff.mp h
        cases hab
        obtain ⟨c, hc, rfl⟩ := ih hs
        exact ⟨c, hc, rfl⟩

theorem eq_append_of_splitOnce {p : Char → Bool} {s a b : List Char} (h : splitOnce p s = some (a, b)) :
    ∃ c, s = a ++ c :: b := by
  obtain ⟨c, -, hs⟩ := splitOnce_eq_some h
  exact ⟨c, hs⟩

theorem splitOnce_subset {p : Char → Bool} {s a b : List Char} (h : splitOnce p s = some (a, b)) :
    a ⊆ s ∧ b ⊆ s ∧ ∀ c ∈ a, p c = false := by
  induction s generalizing a with
  | nil => cases h
  | cons d s ih =>
      rw [splitOnce] at h
      split at h
      · cases h
        exact ⟨List.nil_subset _, List.subset_cons_self d _, by simp⟩
      · rename_i hd
        obtain ⟨⟨a', b'⟩, hs, hab⟩ := Option.map_eq_some_iff.mp h
        cases hab
        obtain ⟨ha, hb, hp⟩ := ih hs
        refine ⟨List.cons_subset_cons d ha, fun x hx => List.mem_cons_of_mem d (hb hx), ?_⟩
        intro x hx
        rcases List.mem_cons.mp hx with rfl | hx
        · simpa using hd
        · exact hp x hx

/-- What stands before the first line of a text is part of it, unless a line break comes about where they meet. -/
theorem lines_append_of_eq {l s m : List Char} {ms : List (List Char)} (hs : lines s = m :: ms) (h : '\n' ∉ l)
    (hr : l.getLast? = some '\r' → s.head? ≠ some '\n') : lines (l ++ s) = (l ++ m) :: ms := by
  induction l with
  | nil => exact hs
  | cons c l ih =>
      have hc : c ≠ '\n' := fun e => h (e ▸ List.mem_cons_self)
      have hl : '\n' ∉ l := fun hm => h (List.mem_cons_of_mem c hm)
      have hbreak : c = '\r' → (l ++ s).head? ≠ some '\n' := by
        intro e
        cases l with
        | nil => exact hr (congrArg some e)
        | cons d l => simpa using (List.ne_of_not_mem_cons hl).symm
      have hrest : l.getLast? = some '\r' → s.head? ≠ some '\n' := by
        cases l with
        | nil => exact nofun
        | cons d l => rwa [List.getLast?_cons_cons] at hr
      rw [List.cons_append, lines.eq_4 c (l ++ s) hc fun _ e heq => hbreak e (by rw [heq]; rfl), ih hl hrest]
      rfl

theorem lines_of_not_mem {l : List Char} (h : '\n' ∉ l) (hne : l ≠ []) : lines l = [l] := by
  obtain ⟨l, c, rfl⟩ := (List.eq_nil_or_concat l).resolve_left hne
  rw [List.concat_eq_append] at h ⊢
  obtain ⟨hl, hc⟩ : '\n' ∉ l ∧ c ≠ '\n' := by simpa [eq_comm] using h
  exact lines_append_of_eq (lines.eq_4 c [] hc nofun) hl fun _ => by simpa using hc

theorem lines_append {l : List Char} (s : List Char) (h : '\n' ∉ l) (hr : l.getLast? ≠ some '\r') :
    lines (l ++ '\n' :: s) = l :: lines s := by
  rw [lines_append_of_eq rfl h fun e => absurd e hr, List.append_nil]

theorem not_mem_of_mem_lines {s l : List Char} (h : l ∈ lines s) : '\n' ∉ l := by
  fun_induction lines s generalizing l with
  | case1 => cases h
  | case2 s ih =>
      rcases List.mem_cons.mp h with rfl | h
      · simp
      · exact ih h
  | case3 s ih =>
      rcases List.mem_cons.mp h with rfl | h
      · simp
      · exact ih h
  | case4 c s hc _ _ ih =>
      have hne : '\n' ≠ c := fun e => hc e.symm
      rw [List.mem_singleton.mp h]
      simpa using hne
  | case5 c s hc _ line rest hlines ih =>
      rw [hlines] at ih
      have hne : '\n' ≠ c := fun e => hc e.symm
      rcases List.mem_cons.mp h with rfl | h
      · intro hmem
        rcases List.mem_cons.mp hmem with e | hmem
        · exact hne e
        · exact ih List.mem_cons_self hmem
      · exact ih (List.mem_cons_of_mem line h)

theorem lines_append_return {l : List Char} (s : List Char) (h : '\n' ∉ l) :
    lines (l ++ '\r' :: '\n' :: s) = l :: lines s := by
  rw [lines_append_of_eq rfl h fun _ => by simp, List.append_nil]

theorem lines_append_feed {l : List Char} (s : List Char) (h : '\n' ∉ l) :
    ∃ m, lines (l ++ '\n' :: s) = m :: lines s ∧ trim m = trim l := by
  by_cases hreturn : l.getLast? = some '\r'
  · obtain ⟨m, rfl⟩ := List.getLast?_eq_some_iff.mp hreturn
    have hm : '\n' ∉ m := fun hmem => h (List.mem_append_left _ hmem)
    refine ⟨m, ?_, (trim_append_blank m (by decide)).symm⟩
    rw [List.append_assoc]
    exact lines_append_return s hm
  · exact ⟨l, lines_append s h hreturn, rfl⟩

theorem exists_lines_cons {c : Char} (s : List Char) (h : isBlank c = false) :
    ∃ l ls, lines (c :: s) = (c :: l) :: ls := by
  have hfeed : c ≠ '\n' := by
    rintro rfl
    cases h
  have hreturn : c ≠ '\r' := by
    rintro rfl
    cases h
  rw [lines.eq_4 _ _ (by simp [hfeed]) (by simp [hreturn])]
  cases lines s with
  | nil => exact ⟨[], [], rfl⟩
  | cons l ls => exact ⟨l, ls, rfl⟩

theorem mem_of_mem_lines {s l : List Char} {c : Char} (hl : l ∈ lines s) (hc : c ∈ l) : c ∈ s := by
  fun_induction lines s generalizing l with
  | case1 => cases hl
  | case2 s ih =>
      rcases List.mem_cons.mp hl with rfl | hl
      · cases hc
      · exact List.mem_cons_of_mem _ (ih hl hc)
  | case3 s ih =>
      rcases List.mem_cons.mp hl with rfl | hl
      · cases hc
      · exact List.mem_cons_of_mem _ (List.mem_cons_of_mem _ (ih hl hc))
  | case4 d s _ _ _ ih =>
      rw [List.mem_singleton.mp hl] at hc
      exact List.mem_singleton.mp hc ▸ List.mem_cons_self
  | case5 d s _ _ line rest hlines ih =>
      rw [hlines] at ih
      rcases List.mem_cons.mp hl with rfl | hl
      · rcases List.mem_cons.mp hc with rfl | hc
        · exact List.mem_cons_self
        · exact List.mem_cons_of_mem d (ih List.mem_cons_self hc)
      · exact List.mem_cons_of_mem d (ih (List.mem_cons_of_mem line hl) hc)

theorem intercalate_cons {α : Type} {sep : α} {ss : List (List α)} (s : List α) (h : ss ≠ []) :
    List.intercalate [sep] (s :: ss) = s ++ sep :: List.intercalate [sep] ss := by
  rw [List.intercalate_cons_of_ne_nil h, List.append_assoc, List.singleton_append]

theorem intercalate_append {α : Type} {sep : List α} {xs ys : List (List α)} (hx : xs ≠ []) (hy : ys ≠ []) :
    List.intercalate sep (xs ++ ys) = List.intercalate sep xs ++ sep ++ List.intercalate sep ys := by
  obtain ⟨y, ys, rfl⟩ := List.exists_cons_of_ne_nil hy
  induction xs with
  | nil => exact absurd rfl hx
  | cons x xs ih =>
      cases xs with
      | nil => rw [List.singleton_append, List.intercalate_cons_cons, List.intercalate_singleton]
      | cons x' xs =>
          rw [List.cons_append, List.cons_append, List.intercalate_cons_cons, ← List.cons_append,
            ih (List.cons_ne_nil x' xs), List.intercalate_cons_cons]
          simp only [List.append_assoc]

theorem intercalate_flatten {α : Type} {sep : List α} {xss : List (List (List α))} (h : ∀ xs ∈ xss, xs ≠ []) :
    List.intercalate sep xss.flatten = List.intercalate sep (xss.map (List.intercalate sep)) := by
  induction xss with
  | nil => rfl
  | cons xs xss ih =>
      have hxs := h xs List.mem_cons_self
      have hrest := ih fun ys hys => h ys (List.mem_cons_of_mem xs hys)
      cases xss with
      | nil => simp
      | cons ys xss =>
          have hys : (ys :: xss).flatten ≠ [] := by simp [h ys (by simp)]
          rw [List.flatten_cons, List.map_cons, List.map_cons, List.intercalate_cons_cons, ← List.map_cons, ← hrest]
          exact intercalate_append hxs hys

theorem intercalate_nil {α : Type} (xss : List (List α)) : List.intercalate [] xss = xss.flatten := by
  induction xss with
  | nil => rfl
  | cons xs xss ih =>
      cases xss with
      | nil => simp
      | cons ys xss => rw [List.intercalate_cons_cons, ih, List.append_nil, List.flatten_cons (l := xs)]

theorem filterMap_intercalate {α β : Type} (f : α → Option β) (sep : List α) (xss : List (List α)) :
    (List.intercalate sep xss).filterMap f =
      List.intercalate (sep.filterMap f) (xss.map (·.filterMap f)) := by
  induction xss with
  | nil => rfl
  | cons xs xss ih =>
      cases xss with
      | nil => simp
      | cons ys xss =>
          rw [List.intercalate_cons_cons, List.filterMap_append, List.filterMap_append, ih]
          simp only [List.map_cons, List.intercalate_cons_cons]

theorem mem_intercalate {α : Type} {x y : α} {ls : List (List α)} (h : x ∈ List.intercalate [y] ls) :
    x = y ∨ ∃ l ∈ ls, x ∈ l := by
  induction ls with
  | nil => cases h
  | cons l ls ih =>
      cases ls with
      | nil => exact Or.inr ⟨l, List.mem_cons_self, by simpa using h⟩
      | cons l' ls =>
          rw [List.intercalate_cons_cons, List.append_assoc, List.mem_append, List.mem_append,
            List.mem_singleton] at h
          rcases h with h | h | h
          · exact Or.inr ⟨l, List.mem_cons_self, h⟩
          · exact Or.inl h
          · rcases ih h with h | ⟨k, hk, h⟩
            · exact Or.inl h
            · exact Or.inr ⟨k, List.mem_cons_of_mem l hk, h⟩

theorem trimmed_intercalate {sep : List Char} {ss : List (List Char)} (h : ∀ s ∈ ss, Trimmed s ∧ s ≠ []) :
    Trimmed (List.intercalate sep ss) ∧ (ss ≠ [] → List.intercalate sep ss ≠ []) := by
  induction ss with
  | nil => exact ⟨trimmed_nil, fun hne => absurd rfl hne⟩
  | cons s ss ih =>
      obtain ⟨hs, hne⟩ := h s List.mem_cons_self
      cases ss with
      | nil => simpa using ⟨hs, hne⟩
      | cons t ss =>
          obtain ⟨htrimmed, hrest⟩ := ih fun t ht => h t (List.mem_cons_of_mem s ht)
          rw [List.intercalate_cons_cons]
          exact ⟨hs.append sep htrimmed hne (hrest (List.cons_ne_nil t ss)), fun _ => by simp [hne]⟩

theorem joinLines_nil : joinLines [] = [] := rfl

theorem joinLines_singleton (l : List Char) : joinLines [l] = l := List.intercalate_singleton

theorem joinLines_cons_cons (l m : List Char) (ls : List (List Char)) :
    joinLines (l :: m :: ls) = l ++ '\n' :: joinLines (m :: ls) :=
  intercalate_cons l (List.cons_ne_nil m ls)

theorem joinLines_cons {ls : List (List Char)} (l : List Char) (h : ls ≠ []) :
    joinLines (l :: ls) = l ++ '\n' :: joinLines ls := intercalate_cons l h

theorem joinLines_append {ls ms : List (List Char)} (hl : ls ≠ []) (hm : ms ≠ []) :
    joinLines (ls ++ ms) = joinLines ls ++ '\n' :: joinLines ms := by
  rw [joinLines, intercalate_append hl hm, List.append_assoc]
  rfl

/-- A line that stays one when it is written before others. -/
def IsLine (l : List Char) : Prop := '\n' ∉ l ∧ l.getLast? ≠ some '\r'

instance (l : List Char) : Decidable (IsLine l) := by
  unfold IsLine
  infer_instance

theorem lines_joinLines {ls : List (List Char)} (h : ∀ l ∈ ls, IsLine l) (hlast : ls.getLast? ≠ some []) :
    lines (joinLines ls) = ls := by
  induction ls with
  | nil => rfl
  | cons l ls ih =>
      have hl := h l List.mem_cons_self
      by_cases hls : ls = []
      · subst hls
        rw [joinLines_singleton]
        exact lines_of_not_mem hl.1 fun e => hlast (by rw [e]; rfl)
      · rw [joinLines_cons l hls, lines_append _ hl.1 hl.2]
        rw [List.getLast?_cons_of_ne_nil hls] at hlast
        rw [ih (fun m hm => h m (List.mem_cons_of_mem l hm)) hlast]

theorem lines_joinLines_append {ls : List (List Char)} (h : ∀ l ∈ ls, IsLine l) (hne : ls ≠ []) :
    lines (joinLines ls ++ ['\n']) = ls := by
  induction ls with
  | nil => exact absurd rfl hne
  | cons l ls ih =>
      have hl := h l List.mem_cons_self
      by_cases hls : ls = []
      · rw [hls, joinLines_singleton, lines_append [] hl.1 hl.2]
        rfl
      · rw [joinLines_cons l hls, List.append_assoc, List.cons_append, lines_append _ hl.1 hl.2,
          ih (fun m hm => h m (List.mem_cons_of_mem l hm)) hls]

theorem joinLines_splitOn (s : List Char) : joinLines (s.splitOn '\n') = s := List.intercalate_splitOn '\n'

theorem eq_false_of_mem_splitOnP {p : Char → Bool} {s w : List Char} (h : w ∈ s.splitOnP p) :
    ∀ c ∈ w, p c = false := by
  induction s generalizing w with
  | nil =>
      rw [List.splitOnP_nil, List.mem_singleton] at h
      simp [h]
  | cons d s ih =>
      obtain ⟨m, ms, hs⟩ := List.exists_cons_of_ne_nil (List.splitOnP_ne_nil p s)
      rw [List.splitOnP_cons_eq_if_modifyHead, hs] at h
      rw [hs] at ih
      by_cases hd : p d = true
      · rw [if_pos hd] at h
        rcases List.mem_cons.mp h with rfl | h
        · simp
        · exact ih h
      · rw [if_neg hd] at h
        rcases List.mem_cons.mp h with rfl | h
        · intro c hc
          rcases List.mem_cons.mp hc with rfl | hc
          · simpa using hd
          · exact ih List.mem_cons_self c hc
        · exact ih (List.mem_cons_of_mem m h)

theorem joinLines_intercalate {bs : List (List (List Char))} (h : ∀ b ∈ bs, b ≠ []) :
    joinLines (List.intercalate [[]] bs) = List.intercalate ['\n', '\n'] (bs.map joinLines) := by
  induction bs with
  | nil => rfl
  | cons b bs ih =>
      have hb := h b List.mem_cons_self
      have hbs := fun b' hb' => h b' (List.mem_cons_of_mem b hb')
      cases bs with
      | nil => rw [List.map_singleton, List.intercalate_singleton, List.intercalate_singleton]
      | cons c bs =>
          have hc : List.intercalate [[]] (c :: bs) ≠ [] := by
            obtain ⟨l, ls, rfl⟩ := List.exists_cons_of_ne_nil (hbs c List.mem_cons_self)
            cases bs <;> simp [List.intercalate_singleton, List.intercalate_cons_cons]
          rw [List.intercalate_cons_cons, List.map_cons, List.map_cons, List.intercalate_cons_cons, ← List.map_cons,
            ← ih hbs, List.append_assoc, joinLines_append hb (by simp), List.singleton_append, joinLines_cons [] hc]
          simp

theorem exists_joinLines (s : List Char) : ∃ ls, ls ≠ [] ∧ (∀ l ∈ ls, '\n' ∉ l) ∧ s = joinLines ls := by
  refine ⟨s.splitOn '\n', List.splitOnP_ne_nil _ s, fun l hl hmem => ?_, (joinLines_splitOn s).symm⟩
  simpa using eq_false_of_mem_splitOnP hl '\n' hmem

theorem cons_joinLines (c : Char) (l : List Char) (ls : List (List Char)) :
    c :: joinLines (l :: ls) = joinLines ((c :: l) :: ls) := by
  cases ls with
  | nil => rw [joinLines_singleton, joinLines_singleton]
  | cons m ls => rw [joinLines_cons_cons, joinLines_cons_cons, List.cons_append]

theorem mem_joinLines_of_mem {ls : List (List Char)} {l : List Char} {c : Char} (hl : l ∈ ls) (hc : c ∈ l) :
    c ∈ joinLines ls := by
  induction ls with
  | nil => cases hl
  | cons m ls ih =>
      by_cases hls : ls = []
      · rw [hls, List.mem_singleton] at hl
        rwa [hls, joinLines_singleton, ← hl]
      · rw [joinLines_cons m hls, List.mem_append]
        rcases List.mem_cons.mp hl with rfl | hl
        · exact Or.inl hc
        · exact Or.inr (List.mem_cons_of_mem _ (ih hl))

theorem not_mem_of_mem_splitOn {s l : List Char} (h : l ∈ s.splitOn '\n') : '\n' ∉ l :=
  fun hmem => by simpa using eq_false_of_mem_splitOnP h '\n' hmem

theorem isLine_of_mem_splitOn {s l : List Char} (hs : '\r' ∉ s) (h : l ∈ s.splitOn '\n') : IsLine l := by
  refine ⟨not_mem_of_mem_splitOn h, fun hlast => hs ?_⟩
  rw [← joinLines_splitOn s]
  exact mem_joinLines_of_mem h (List.mem_of_mem_getLast? hlast)

theorem splitOn_ne_nil (s : List Char) : s.splitOn '\n' ≠ [] := List.splitOnP_ne_nil _ s

theorem exists_lines_eq {ls : List (List Char)} (h : ∀ l ∈ ls, '\n' ∉ l) : ∃ s, lines s = ls := by
  induction ls with
  | nil => exact ⟨[], rfl⟩
  | cons l ls ih =>
      obtain ⟨hl, hls⟩ := List.forall_mem_cons.mp h
      obtain ⟨s, rfl⟩ := ih hls
      exact ⟨_, lines_append_return s hl⟩

theorem joinLines_append_ne {l : List Char} (ls ms : List (List Char)) (h : l ≠ []) :
    joinLines (ls ++ l :: ms) ≠ joinLines ls := by
  intro e
  have hlength := congrArg List.length e
  by_cases hls : ls = []
  · have hl : (joinLines (l :: ms)).length ≠ 0 := by
      cases ms with
      | nil => simpa [joinLines_singleton] using h
      | cons m ms => simp [joinLines_cons_cons]
    rw [hls] at hlength
    exact hl hlength
  · rw [joinLines_append hls (List.cons_ne_nil l ms), List.length_append, List.length_cons] at hlength
    omega

/-- A line and a text below it, neither of them blank, are trimmed at the outer ends only. -/
theorem trim_append_feed {l s : List Char} (hl : trim l ≠ []) (hs : trim s ≠ []) :
    trim (l ++ '\n' :: s) = trimStart l ++ '\n' :: trimEnd s := by
  have hstart : (l.dropWhile isBlank).isEmpty = false := by
    rw [Bool.eq_false_iff, Ne, List.isEmpty_iff, List.dropWhile_eq_nil_iff]
    exact fun hall => hl (trim_eq_nil_iff.mpr hall)
  have hfeed : trim ('\n' :: s) ≠ [] := by rwa [trim_cons_blank s (by decide)]
  rw [trim, trimStart, List.dropWhile_append, hstart, if_neg Bool.false_ne_true, trimEnd_append_of_ne_nil _ hfeed]
  exact congrArg _ (trimEnd_append_of_ne_nil ['\n'] hs)

theorem trim_isPrefix_joinLines (l : List Char) (ls : List (List Char)) : trim l <+: trim (joinLines (l :: ls)) := by
  by_cases hls : ls = []
  · simp only [hls, joinLines_singleton, List.prefix_rfl]
  · rw [joinLines_cons l hls]
    by_cases hl : trim l = []
    · rw [hl]
      exact List.nil_prefix
    · by_cases hrest : trim (joinLines ls) = []
      · have hblank : ∀ c ∈ '\n' :: joinLines ls, isBlank c := List.forall_mem_cons.mpr ⟨rfl, trim_eq_nil_iff.mp hrest⟩
        simp only [trim_append_blanks l hblank, List.prefix_rfl]
      · rw [trim_append_feed hl hrest]
        exact (dropEndWhile_isPrefix isBlank _).trans (List.prefix_append _ _)

theorem ink_joinLines (ls : List (List Char)) : ink (joinLines ls) = ink ls.flatten := by
  induction ls with
  | nil => rfl
  | cons l ls ih =>
      by_cases hls : ls = []
      · rw [hls, joinLines_singleton, List.flatten_cons, List.flatten_nil, List.append_nil]
      · rw [joinLines_cons l hls, ink_append, ink_cons_blank _ (by decide), ih, List.flatten_cons, ink_append]

theorem ink_lines (s : List Char) : ink (lines s).flatten = ink s := by
  fun_induction lines s with
  | case1 => rfl
  | case2 s ih => rw [List.flatten_cons, List.nil_append, ih, ink_cons_blank _ (by decide)]
  | case3 s ih =>
      rw [List.flatten_cons, List.nil_append, ih, ink_cons_blank _ (by decide), ink_cons_blank _ (by decide)]
  | case4 c s _ _ hlines ih =>
      rw [hlines] at ih
      rw [List.flatten_singleton, ← List.singleton_append (l := s), ink_append, ← ih]
      exact (List.append_nil _).symm
  | case5 c s _ _ line rest hlines ih =>
      rw [hlines, List.flatten_cons] at ih
      rw [List.flatten_cons, List.cons_append, ← List.singleton_append, ink_append, ih]
      exact (ink_append [c] s).symm

theorem trim_joinLines_cons_nil (ls : List (List Char)) : trim (joinLines ([] :: ls)) = trim (joinLines ls) := by
  cases ls with
  | nil => rfl
  | cons l ls => rw [joinLines_cons_cons, List.nil_append, trim_cons_blank _ rfl]

theorem trim_joinLines_concat_nil (ls : List (List Char)) : trim (joinLines (ls ++ [[]])) = trim (joinLines ls) := by
  by_cases hls : ls = []
  · rw [hls]
    rfl
  · rw [joinLines_append hls (List.cons_ne_nil _ _), joinLines_singleton]
    exact trim_append_blank _ rfl

theorem trim_joinLines_cons_blank {l : List Char} (ls : List (List Char)) (h : trim l = []) :
    trim (joinLines (l :: ls)) = trim (joinLines ls) := by
  by_cases hls : ls = []
  · rw [hls, joinLines_singleton, h]
    rfl
  · rw [joinLines_cons l hls, trim_blanks_append _ (trim_eq_nil_iff.mp h), trim_cons_blank _ rfl]

end BookCompiler.Text
