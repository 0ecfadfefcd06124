import BookCompiler.Proofs.Compile.Placeholders
import BookCompiler.Proofs.Markdown.Enclosed
import BookCompiler.Proofs.Markdown.Flattened

namespace BookCompiler.Markdown

open Text

/-- What may stand in backticks, and what is written for it when they are taken away. -/
inductive Unwraps : List Char → List Char → Prop
  | parameter {name : List Char} (hne : name ≠ []) (hname : ∀ c ∈ name, Name.isWordChar c = true) :
      Unwraps (bracedChars name) (bracedChars name)
  | result {gap name : List Char} (hgap : ∀ c ∈ gap, isBlank c = true) (hne : name ≠ [])
      (hname : ∀ c ∈ name, Name.isWordChar c = true) :
      Unwraps ('-' :: '>' :: (gap ++ bracedChars name)) (returnChars name)

/-- A text, and the same text with some pairs of backticks taken away. -/
inductive Bared : List Char → List Char → Prop
  | nil : Bared [] []
  | kept (c : Char) {s s' : List Char} (h : Bared s s') : Bared (c :: s) (c :: s')
  | taken {a a' s s' : List Char} (ha : Unwraps a a') (h : Bared s s') :
      Bared ('\x60' :: (a ++ '\x60' :: s)) (a' ++ s')

section Replace

variable {find? : List Char → Option (List Char × List Char)} {write : List Char → List Char}

theorem replaceAll_drop (more : Nat) (s : List Char) :
    replaceAll find? write more s = replaceAll find? write 0 (s.drop more) := by
  induction s generalizing more with
  | nil => rw [List.drop_nil, replaceAll, replaceAll]
  | cons c s ih =>
      cases more with
      | zero => rfl
      | succ more => rw [replaceAll, if_pos (Nat.succ_ne_zero more), Nat.add_sub_cancel, ih, List.drop_succ_cons]

theorem bared_replaceAll
    (h : ∀ t name rest, find? t = some (name, rest) → ∃ a, t = '\x60' :: (a ++ '\x60' :: rest) ∧ Unwraps a (write name))
    (s : List Char) : Bared s (replaceAll find? write 0 s) := by
  induction hn : s.length using Nat.strong_induction_on generalizing s with
  | h n ih =>
      subst hn
      cases s with
      | nil => exact .nil
      | cons c s =>
          rw [replaceAll, if_neg (not_not_intro rfl)]
          cases hfind : find? (c :: s) with
          | none => exact .kept c (ih _ (Nat.lt_succ_self _) s rfl)
          | some found =>
              obtain ⟨name, rest⟩ := found
              obtain ⟨a, ha, hunwraps⟩ := h _ _ _ hfind
              obtain ⟨rfl, rfl⟩ := List.cons.inj ha
              have hbehind : (a ++ '\x60' :: rest).drop ((a ++ '\x60' :: rest).length - rest.length) = rest := by
                rw [List.append_cons a]
                refine List.drop_left' ?_
                simp only [List.length_append, List.length_cons, List.length_nil]
                omega
              dsimp only
              rw [replaceAll_drop, hbehind]
              refine .taken hunwraps (ih _ ?_ rest rfl)
              simp only [List.length_cons, List.length_append]
              omega

theorem exists_of_ticked {read : List Char → Option (List Char × List Char)} {t name rest : List Char}
    (h : ticked? read t = some (name, rest)) : ∃ u, t = '\x60' :: u ∧ read u = some (name, '\x60' :: rest) := by
  unfold ticked? at h
  split at h
  · split at h
    · rename_i hread
      cases h
      exact ⟨_, rfl, hread⟩
    · cases h
  · cases h

theorem exists_of_returnMarker {t name rest : List Char} (h : returnMarker? t = some (name, rest)) :
    ∃ gap, (∀ c ∈ gap, isBlank c = true) ∧ name ≠ [] ∧ (∀ c ∈ name, Name.isWordChar c = true) ∧
      t = '-' :: '>' :: (gap ++ bracedChars name) ++ rest := by
  unfold returnMarker? at h
  split at h
  · rename_i s
    obtain ⟨hne, hname, hs⟩ := bracedName?_eq_some_iff.mp h
    have hparts : s = s.takeWhile isBlank ++ trimStart s := List.takeWhile_append_dropWhile.symm
    rw [hs, ← List.append_assoc] at hparts
    exact ⟨s.takeWhile isBlank, fun c hc => List.mem_takeWhile_imp hc, hne, hname, congrArg ('-' :: '>' :: ·) hparts⟩
  · cases h

theorem bared_results (s : List Char) : Bared s (replaceAll (ticked? returnMarker?) returnChars 0 s) := by
  apply bared_replaceAll
  intro t name rest h
  obtain ⟨u, rfl, hread⟩ := exists_of_ticked h
  obtain ⟨gap, hgap, hne, hname, rfl⟩ := exists_of_returnMarker hread
  exact ⟨_, rfl, .result hgap hne hname⟩

theorem bared_parameters (s : List Char) : Bared s (replaceAll (ticked? bracedName?) bracedChars 0 s) := by
  apply bared_replaceAll
  intro t name rest h
  obtain ⟨u, rfl, hread⟩ := exists_of_ticked h
  obtain ⟨hne, hname, rfl⟩ := bracedName?_eq_some_iff.mp hread
  exact ⟨_, rfl, .parameter hne hname⟩

theorem exists_bared_unwrapLine (line : List Char) : ∃ between, Bared line between ∧ Bared between (unwrapLine line) :=
  ⟨_, bared_results line, bared_parameters _⟩

end Replace

section Bared

variable {a a' s s' : List Char}

theorem Unwraps.exists_braced (h : Unwraps a a') : ∃ u u' name, a = u ++ bracedChars name ∧ a' = u' ++ bracedChars name ∧
    '\x7b' ∉ u ∧ '\x7b' ∉ u' ∧ name ≠ [] ∧ ∀ c ∈ name, Name.isWordChar c = true := by
  cases h with
  | parameter hne hname => exact ⟨[], [], _, rfl, rfl, List.not_mem_nil, List.not_mem_nil, hne, hname⟩
  | @result gap name hgap hne hname =>
      refine ⟨'-' :: '>' :: gap, ['-', '>', ' '], name, rfl, rfl, ?_, by decide, hne, hname⟩
      simp only [List.mem_cons, not_or]
      exact ⟨by decide, by decide, fun hmem => absurd (hgap _ hmem) (by decide)⟩

theorem Unwraps.exists_cons (h : Unwraps a a') : ∃ c u, a' = c :: u ∧ (c = '\x7b' ∨ c = '-') := by
  cases h with
  | parameter => exact ⟨_, _, rfl, Or.inl rfl⟩
  | result => exact ⟨_, _, rfl, Or.inr rfl⟩

theorem Unwraps.mem {c : Char} (h : Unwraps a a') (hc : c ∈ a') : c ∈ a ∨ c = ' ' := by
  cases h with
  | parameter => exact Or.inl hc
  | result =>
      simp only [returnChars, List.cons_append, List.nil_append, List.mem_cons] at hc
      rcases hc with rfl | rfl | rfl | hc
      · simp
      · simp
      · exact Or.inr rfl
      · simp [hc]

theorem Bared.mem {c : Char} (h : Bared s s') (hc : c ∈ s') : c ∈ s ∨ c = ' ' := by
  induction h with
  | nil => cases hc
  | kept d h ih =>
      rcases List.mem_cons.mp hc with rfl | hc
      · exact Or.inl List.mem_cons_self
      · exact (ih hc).imp_left (List.mem_cons_of_mem d)
  | taken ha h ih =>
      rcases List.mem_append.mp hc with hc | hc
      · exact (ha.mem hc).imp_left fun hmem => by simp [hmem]
      · exact (ih hc).imp_left fun hmem => by simp [hmem]

theorem Bared.eq_nil_iff (h : Bared s s') : s' = [] ↔ s = [] := by
  cases h with
  | nil => exact iff_of_true rfl rfl
  | kept c h => simp
  | taken ha h =>
      obtain ⟨c, u, rfl, -⟩ := ha.exists_cons
      simp

theorem Bared.length_takeWhile_le {x : Char} (hbrace : x ≠ '\x7b') (hdash : x ≠ '-') (h : Bared s s') :
    (s'.takeWhile (· = x)).length ≤ (s.takeWhile (· = x)).length := by
  induction h with
  | nil => exact Nat.le_refl _
  | kept c h ih =>
      by_cases hc : c = x
      · rw [List.takeWhile_cons_of_pos (by simpa using hc), List.takeWhile_cons_of_pos (by simpa using hc)]
        exact Nat.succ_le_succ ih
      · rw [List.takeWhile_cons_of_neg (by simpa using hc)]
        exact Nat.zero_le _
  | taken ha h ih =>
      obtain ⟨c, u, rfl, hc⟩ := ha.exists_cons
      have hne : ¬ c = x := by
        rintro rfl
        exact hc.elim hbrace hdash
      rw [List.cons_append, List.takeWhile_cons_of_neg (by simpa using hne)]
      exact Nat.zero_le _

theorem Bared.trimStart (h : Bared s s') : Bared (trimStart s) (trimStart s') := by
  induction h with
  | nil => exact .nil
  | kept c h ih =>
      by_cases hc : isBlank c = true
      · rwa [trimStart_cons_blank _ hc, trimStart_cons_blank _ hc]
      · rw [Text.trimStart, Text.trimStart, List.dropWhile_cons_of_neg hc, List.dropWhile_cons_of_neg hc]
        exact .kept c h
  | taken ha h ih =>
      obtain ⟨c, u, rfl, hc⟩ := ha.exists_cons
      have hblank : ¬ isBlank c = true := by
        rcases hc with rfl | rfl <;> decide
      rw [Text.trimStart, Text.trimStart, List.dropWhile_cons_of_neg (by decide), List.cons_append,
        List.dropWhile_cons_of_neg hblank]
      exact .taken ha h

theorem Bared.getLast? (h : Bared s s') : s'.getLast? = s.getLast? ∨ s'.getLast? = some '\x7d' := by
  induction h with
  | nil => exact Or.inl rfl
  | @kept c s s' h ih =>
      by_cases hs : s = []
      · rw [hs, h.eq_nil_iff.mpr hs]
        exact Or.inl rfl
      · rwa [List.getLast?_cons_of_ne_nil hs, List.getLast?_cons_of_ne_nil fun hnil => hs (h.eq_nil_iff.mp hnil)]
  | @taken a a' s s' ha h ih =>
      by_cases hs : s = []
      · obtain ⟨u, u', name, -, rfl, -⟩ := ha.exists_braced
        rw [h.eq_nil_iff.mpr hs, List.append_nil, bracedChars, ← List.append_assoc, List.getLast?_concat]
        exact Or.inr rfl
      · rw [List.append_cons, ← List.cons_append, List.getLast?_append_of_ne_nil _ hs,
          List.getLast?_append_of_ne_nil _ fun hnil => hs (h.eq_nil_iff.mp hnil)]
        exact ih

theorem Bared.trimmed (h : Bared s s') (hs : Trimmed s) : Trimmed s' := by
  constructor
  · cases h with
    | nil => exact hs.1
    | kept c h => exact hs.1
    | taken ha h =>
        obtain ⟨c, u, rfl, hc⟩ := ha.exists_cons
        rintro d ⟨⟩
        rcases hc with rfl | rfl <;> rfl
  · rcases h.getLast? with hlast | hlast
    · rw [hlast]
      exact hs.2
    · rw [hlast]
      rintro c ⟨⟩
      rfl

theorem open?_eq_none_iff {line : List Char} : Fence.open? line = none ↔
    ∀ x, Fence.isMarker x = true → ((trimStart line).takeWhile (· = x)).length < Fence.leastLength := by
  rw [Fence.open?]
  cases trimStart line with
  | nil => simp [Fence.leastLength]
  | cons c rest =>
      have hrun (x : Char) : ((c :: rest).takeWhile (· = x)).length =
          if c = x then (rest.takeWhile (· = c)).length + 1 else 0 := by
        split
        · rename_i hc
          rw [List.takeWhile_cons_of_pos (by simpa using hc), List.length_cons, hc]
        · rename_i hc
          rw [List.takeWhile_cons_of_neg (by simpa using hc), List.length_nil]
      simp only [hrun, ite_eq_right_iff, Bool.and_eq_true, decide_eq_true_eq, reduceCtorEq, imp_false, not_and, not_le]
      constructor
      · intro h x hx
        split
        · rename_i hc
          exact h (hc ▸ hx)
        · decide
      · intro h hc
        simpa using h c hc

theorem open?_unwrapLine {line : List Char} (h : Fence.open? line = none) : Fence.open? (unwrapLine line) = none := by
  have hbared {s s' : List Char} (hs : Fence.open? s = none) (hb : Bared s s') : Fence.open? s' = none := by
    rw [open?_eq_none_iff] at hs ⊢
    intro x hx
    have hne : x ≠ '\x7b' ∧ x ≠ '-' := by
      constructor <;> rintro rfl <;> exact absurd hx (by decide)
    exact Nat.lt_of_le_of_lt (hb.trimStart.length_takeWhile_le hne.1 hne.2) (hs x hx)
  obtain ⟨between, hfirst, hsecond⟩ := exists_bared_unwrapLine line
  exact hbared (hbared h hfirst) hsecond

theorem mem_unwrapLine {line : List Char} {c : Char} (h : c ∈ unwrapLine line) : c ∈ line ∨ c = ' ' := by
  obtain ⟨between, hfirst, hsecond⟩ := exists_bared_unwrapLine line
  exact (hsecond.mem h).elim hfirst.mem Or.inr

theorem trimmed_unwrapLine {line : List Char} (h : Trimmed line) : Trimmed (unwrapLine line) := by
  obtain ⟨between, hfirst, hsecond⟩ := exists_bared_unwrapLine line
  exact hsecond.trimmed (hfirst.trimmed h)

theorem unwrapLine_eq_nil_iff {line : List Char} : unwrapLine line = [] ↔ line = [] := by
  obtain ⟨between, hfirst, hsecond⟩ := exists_bared_unwrapLine line
  rw [hsecond.eq_nil_iff, hfirst.eq_nil_iff]

end Bared

end BookCompiler.Markdown

namespace BookCompiler

open Text Markdown

section Placeholders

variable {s s' : List Char}

theorem placeholderAt?_cons_iff {c : Char} {name : String} : placeholderAt? (c :: s) = some name ↔
    Name.Mentionable name ∧ c = '\x7b' ∧ name.toList ++ ['\x7d'] <+: s := by
  rw [placeholderAt?_eq_some_iff, Name.toList_braced, List.cons_prefix_cons, eq_comm (a := c)]

theorem placeholderAt?_congr (c : Char)
    (h : ∀ name, Name.Mentionable name → (name.toList ++ ['\x7d'] <+: s ↔ name.toList ++ ['\x7d'] <+: s')) :
    placeholderAt? (c :: s) = placeholderAt? (c :: s') := by
  apply Option.ext
  intro name
  rw [placeholderAt?_cons_iff, placeholderAt?_cons_iff]
  exact and_congr_right fun hspelled => and_congr_right fun _ => h name hspelled

theorem Markdown.Bared.prefix_iff (h : Bared s s') {name : List Char} (hname : ∀ c ∈ name, Name.isWordChar c = true) :
    name ++ ['\x7d'] <+: s ↔ name ++ ['\x7d'] <+: s' := by
  induction h generalizing name with
  | nil => rfl
  | kept c h ih =>
      cases name with
      | nil => simp
      | cons d name =>
          obtain ⟨-, hname⟩ := List.forall_mem_cons.mp hname
          rw [List.cons_append, List.cons_prefix_cons, List.cons_prefix_cons, ih hname]
  | taken ha h ih =>
      obtain ⟨c, u, rfl, hc⟩ := ha.exists_cons
      have hfirst {d : Char} {t : List Char} (hd : Name.isWordChar d = false) (hclose : d ≠ '\x7d') :
          ¬ name ++ ['\x7d'] <+: d :: t := by
        intro hprefix
        cases name with
        | nil => exact hclose (List.cons_prefix_cons.mp hprefix).1.symm
        | cons e name =>
            rw [← (List.cons_prefix_cons.mp hprefix).1, hname e List.mem_cons_self] at hd
            cases hd
      refine iff_of_false (hfirst (by decide) (by decide)) (hfirst ?_ ?_) <;> rcases hc with rfl | rfl <;> decide

theorem placeholdersIn_braced {name : List Char} (hne : name ≠ []) (hname : ∀ c ∈ name, Name.isWordChar c = true)
    (t : List Char) : placeholdersIn (bracedChars name ++ t) = placeholdersIn (bracedChars name) ++ placeholdersIn t := by
  have hopen : '\x7b' ∉ name ++ ['\x7d'] := by
    rw [List.mem_append, not_or]
    exact ⟨fun hmem => absurd (hname _ hmem) (by decide), by decide⟩
  have hread (t : List Char) : bracedName? (bracedChars name ++ t) = some (name, t) :=
    bracedName?_eq_some_iff.mpr ⟨hne, hname, rfl⟩
  have hall (t : List Char) : placeholdersIn (bracedChars name ++ t) =
      (placeholderAt? (bracedChars name ++ t)).toList ++ placeholdersIn t := by
    rw [← placeholdersIn_append t hopen]
    rfl
  have hsame : placeholderAt? (bracedChars name ++ t) = placeholderAt? (bracedChars name ++ []) := by
    rw [placeholderAt?, placeholderAt?, hread, hread]
    cases name <;> rfl
  have halone := hall []
  rw [List.append_nil] at halone hsame
  rw [hall, hsame, halone]
  exact congrArg (· ++ _) (List.append_nil _).symm

theorem placeholdersIn_bared (h : Bared s s') : placeholdersIn s' = placeholdersIn s := by
  induction h with
  | nil => rfl
  | @kept c s s' h ih =>
      have hfirst : placeholderAt? (c :: s') = placeholderAt? (c :: s) :=
        placeholderAt?_congr c fun name hspelled => (h.prefix_iff (Name.mentionable_iff.mp hspelled).2).symm
      rw [placeholdersIn, placeholdersIn, hfirst, ih]
  | @taken a a' s s' ha h ih =>
      obtain ⟨u, u', name, rfl, rfl, hu, hu', hne, hname⟩ := ha.exists_braced
      have htick : '\x7b' ∉ '\x60' :: u := by simpa using hu
      rw [List.append_assoc, placeholdersIn_append _ hu', placeholdersIn_braced hne hname, ih, List.append_assoc,
        ← List.cons_append, placeholdersIn_append _ htick, placeholdersIn_braced hne hname]
      exact congrArg _ (placeholdersIn_append (u := ['\x60']) s (by decide)).symm

theorem placeholdersIn_unwrapLine (line : List Char) : placeholdersIn (unwrapLine line) = placeholdersIn line := by
  obtain ⟨between, hfirst, hsecond⟩ := exists_bared_unwrapLine line
  rw [placeholdersIn_bared hsecond, placeholdersIn_bared hfirst]

theorem prefix_append_iff {p a b : List Char} {c : Char} (h : c ∉ p) : p <+: a ++ c :: b ↔ p <+: a := by
  induction p generalizing a with
  | nil => exact iff_of_true List.nil_prefix List.nil_prefix
  | cons d p ih =>
      rw [List.mem_cons, not_or] at h
      cases a with
      | nil => simpa using fun hd => absurd hd.symm h.1
      | cons e a => rw [List.cons_append, List.cons_prefix_cons, List.cons_prefix_cons, ih h.2]

theorem prefix_lines_iff {p s : List Char} (hfeed : '\n' ∉ p) (hreturn : '\r' ∉ p) :
    p <+: s ↔ p <+: (lines s).headD [] := by
  have hother {q t : List Char} {c : Char} (hc : c ∉ q) : q <+: c :: t ↔ q <+: [] := prefix_append_iff (a := []) hc
  fun_induction lines s generalizing p with
  | case1 => rfl
  | case2 s ih => exact hother hfeed
  | case3 s ih => exact hother hreturn
  | case4 c s _ _ hlines ih | case5 c s _ _ line rest hlines ih =>
      rw [hlines] at ih
      cases p with
      | nil => exact iff_of_true List.nil_prefix List.nil_prefix
      | cons d p =>
          rw [List.mem_cons, not_or] at hfeed hreturn
          rw [List.headD_cons, List.cons_prefix_cons, List.cons_prefix_cons]
          exact and_congr_right fun _ => ih hfeed.2 hreturn.2

theorem not_mem_closed {c : Char} {name : String} (hspelled : Name.Mentionable name) (hc : Name.isWordChar c = false)
    (hclose : c ≠ '\x7d') : c ∉ name.toList ++ ['\x7d'] := by
  rw [List.mem_append, List.mem_singleton, not_or]
  refine ⟨fun hmem => ?_, hclose⟩
  rw [(Name.mentionable_iff.mp hspelled).2 c hmem] at hc
  cases hc

theorem placeholdersIn_append_feed (a b : List Char) :
    placeholdersIn (a ++ '\n' :: b) = placeholdersIn a ++ placeholdersIn b := by
  induction a with
  | nil => exact placeholdersIn_append (u := ['\n']) b (by decide)
  | cons c a ih =>
      have hfirst : placeholderAt? (c :: (a ++ '\n' :: b)) = placeholderAt? (c :: a) :=
        placeholderAt?_congr c fun name hspelled => prefix_append_iff (not_mem_closed hspelled (by decide) (by decide))
      rw [List.cons_append, placeholdersIn, placeholdersIn, hfirst, ih, List.append_assoc]

theorem placeholdersIn_joinLines (ls : List (List Char)) : placeholdersIn (joinLines ls) = ls.flatMap placeholdersIn := by
  induction ls with
  | nil => rfl
  | cons l ls ih =>
      by_cases hls : ls = []
      · rw [hls, joinLines_singleton, List.flatMap_singleton]
      · rw [joinLines_cons l hls, placeholdersIn_append_feed, ih, List.flatMap_cons]

/-- No mention goes over the end of a line. -/
theorem placeholdersIn_lines (s : List Char) : (lines s).flatMap placeholdersIn = placeholdersIn s := by
  fun_induction lines s with
  | case1 => rfl
  | case2 s ih =>
      rw [List.flatMap_cons, ih]
      exact (placeholdersIn_append (u := ['\n']) s (by decide)).symm
  | case3 s ih =>
      rw [List.flatMap_cons, ih]
      exact (placeholdersIn_append (u := ['\r', '\n']) s (by decide)).symm
  | case4 c s _ _ hlines ih | case5 c s _ _ line rest hlines ih =>
      have hfirst : placeholderAt? (c :: s) = placeholderAt? (c :: (lines s).headD []) :=
        placeholderAt?_congr c fun name hspelled => prefix_lines_iff
          (not_mem_closed hspelled (by decide) (by decide)) (not_mem_closed hspelled (by decide) (by decide))
      rw [hlines] at ih hfirst
      rw [placeholdersIn, ← ih, hfirst]
      simp [placeholdersIn]

theorem Markdown.unwrapParameters_classified (s : List Char) :
    unwrapParameters s = joinLines ((classifiedLines s).map unwrapClassified) := rfl

theorem placeholdersIn_unwrapParameters (s : List Char) : placeholdersIn (unwrapParameters s) = placeholdersIn s := by
  have hline (q : LineClass × List Char) : placeholdersIn (unwrapClassified q) = placeholdersIn q.2 := by
    obtain ⟨c, line⟩ := q
    dsimp only [unwrapClassified]
    split
    · exact placeholdersIn_unwrapLine line
    · rfl
  have hlines : (classifiedLines s).flatMap (fun q => placeholdersIn q.2) = (lines s).flatMap placeholdersIn := by
    rw [← map_snd_classifyFrom none (lines s), List.flatMap_map]
    rfl
  rw [← placeholdersIn_lines s, ← hlines, unwrapParameters_classified, placeholdersIn_joinLines, List.flatMap_map]
  simp only [hline]

end Placeholders

end BookCompiler

namespace BookCompiler.Markdown

open Text

section Classes

theorem lines_joinLines_eq {ls : List (List Char)} (h : ∀ l ∈ ls, IsLine l) :
    lines (joinLines ls) = if ls.getLast? = some [] then ls.dropLast else ls := by
  split
  · rename_i hlast
    obtain ⟨init, rfl⟩ := List.getLast?_eq_some_iff.mp hlast
    rw [List.dropLast_concat]
    by_cases hinit : init = []
    · rw [hinit]
      rfl
    · rw [joinLines_append hinit (List.cons_ne_nil _ _), joinLines_singleton]
      exact lines_joinLines_append (List.forall_mem_append.mp h).1 hinit
  · rename_i hlast
    exact lines_joinLines h hlast

theorem classify_eq_outside_iff {fence : Option Fence} {line : List Char} :
    classify fence line = .outside ↔ fence = none ∧ Fence.open? line = none := by
  cases fence with
  | some f =>
      rw [classify]
      split <;> simp
  | none =>
      rw [classify]
      cases Fence.open? line <;> simp

/-- Taking backticks away changes the class of no line. -/
theorem classifyFrom_unwrap (fence : Option Fence) (ls : List (List Char)) :
    classifyFrom fence ((classifyFrom fence ls).map unwrapClassified) =
      (classifyFrom fence ls).map fun q => (q.1, unwrapClassified q) := by
  induction ls generalizing fence with
  | nil => rfl
  | cons l ls ih =>
      have hclass : classify fence (unwrapClassified (classify fence l, l)) = classify fence l := by
        by_cases hout : classify fence l = .outside
        · obtain ⟨hfence, hopen⟩ := classify_eq_outside_iff.mp hout
          rw [unwrapClassified, if_pos hout, hout]
          exact classify_eq_outside_iff.mpr ⟨hfence, open?_unwrapLine hopen⟩
        · rw [unwrapClassified, if_neg hout]
      rw [classifyFrom, List.map_cons, List.map_cons, classifyFrom, hclass, ih]

theorem codeBlocksIn_unwrap (xs : List (LineClass × List Char)) :
    codeBlocksIn (xs.map fun q => (q.1, unwrapClassified q)) = codeBlocksIn xs := by
  induction xs with
  | nil => rfl
  | cons x xs ih =>
      obtain ⟨c, line⟩ := x
      rw [List.map_cons]
      cases c with
      | opens f =>
          have hcontent : ((xs.map fun q => (q.1, unwrapClassified q)).takeWhile fun q => q.1 = .inside).map Prod.snd =
              (xs.takeWhile fun q => q.1 = .inside).map Prod.snd := by
            rw [List.takeWhile_map, List.map_map]
            apply List.map_congr_left
            intro q hq
            have hinside : q.1 = .inside := by simpa using List.mem_takeWhile_imp hq
            simp [unwrapClassified, hinside]
          rw [codeBlocksIn, codeBlocksIn, ih]
          exact congrArg (fun content => CodeBlock.mk _ (String.ofList (joinLines content)) :: _) hcontent
      | closes | inside | outside => simpa [codeBlocksIn] using ih

theorem exists_opener {ls : List (List Char)} {f : Fence} (h : fenceAfter none ls = some f) :
    ∃ pre o b, ls = pre ++ o :: b ∧ fenceAfter none pre = none ∧ Fence.open? o = some f ∧
      ∀ line ∈ b, f.isClosedBy line = false := by
  induction ls using List.reverseRecOn with
  | nil => cases h
  | append_singleton ls l ih =>
      have hstep : (classify (fenceAfter none ls) l).fenceAfter (fenceAfter none ls) = some f := by
        rw [fenceAfter, List.foldl_append] at h
        exact h
      cases hopen : fenceAfter none ls with
      | none =>
          rw [hopen, classify] at hstep
          cases hl : Fence.open? l with
          | none =>
              rw [hl] at hstep
              cases hstep
          | some g =>
              rw [hl] at hstep
              cases hstep
              exact ⟨ls, l, [], rfl, hopen, hl, List.forall_mem_nil _⟩
      | some g =>
          rw [hopen, classify] at hstep
          cases hclosed : g.isClosedBy l with
          | true =>
              rw [hclosed] at hstep
              cases hstep
          | false =>
              rw [hclosed] at hstep
              cases hstep
              obtain ⟨pre, o, b, rfl, hpre, ho, hb⟩ := ih hopen
              refine ⟨pre, o, b ++ [l], by simp, hpre, ho, ?_⟩
              exact List.forall_mem_append.mpr ⟨hb, by simpa using hclosed⟩

theorem isClosedBy_nil {o : List Char} {f : Fence} (h : Fence.open? o = some f) : f.isClosedBy [] = false := by
  rw [Fence.open?] at h
  split at h
  · cases h
  · dsimp only at h
    split at h
    · cases h
      rfl
    · cases h

/-- Lines that end with an empty one of a code block that nothing closes, if it is not the only one there. -/
def TrailsOff (xs : List (LineClass × List Char)) : Prop := ∃ ys l, xs = ys ++ [(.inside, l), (.inside, [])]

theorem not_trailsOff {xs : List (LineClass × List Char)} {x y : LineClass × List Char}
    (h : x.1 ≠ .inside) : ¬ TrailsOff (xs ++ [x, y]) := by
  rintro ⟨ys, l, hends⟩
  obtain ⟨-, hlast⟩ := List.append_inj' hends rfl
  obtain ⟨rfl, -⟩ := List.cons.inj hlast
  exact h rfl

theorem codeBlocksIn_concat_nil (ls : List (List Char)) :
    (¬ TrailsOff (classifyFrom none (ls ++ [[]])) ∧
      codeBlocksIn (classifyFrom none (ls ++ [[]])) = codeBlocksIn (classifyFrom none ls)) ∨
    TrailsOff (classifyFrom none (ls ++ [[]])) ∧ ∃ blocks language content,
      codeBlocksIn (classifyFrom none (ls ++ [[]])) = blocks ++ [⟨language, content ++ "\n"⟩] ∧
      codeBlocksIn (classifyFrom none ls) = blocks ++ [⟨language, content⟩] := by
  cases hopen : fenceAfter none ls with
  | none =>
      have hlast : classifyFrom none (ls ++ [[]]) = classifyFrom none ls ++ [(.outside, [])] := by
        rw [classifyFrom_append, hopen]
        rfl
      refine Or.inl ⟨?_, ?_⟩
      · rintro ⟨ys, l, hends⟩
        have hends := congrArg List.getLast? (hlast.symm.trans hends)
        simp at hends
      · rw [hlast, codeBlocksIn_append (by simp)]
        exact List.append_nil _
  | some f =>
      obtain ⟨pre, o, b, rfl, hpre, ho, hb⟩ := exists_opener hopen
      have hall : ∀ line ∈ b ++ [[]], f.isClosedBy line = false :=
        List.forall_mem_append.mpr ⟨hb, by simpa using isClosedBy_nil ho⟩
      have hlonger := codeBlocksIn_enclosed [] hpre ho hall
      have hshorter := codeBlocksIn_enclosed [] hpre ho hb
      have hclasses := classifyFrom_enclosed [] hpre ho hall
      simp only [List.append_nil, List.takeWhile_nil, classifyFrom, codeBlocksIn] at hlonger hshorter hclasses
      rw [List.append_assoc, List.cons_append, hlonger, hshorter, hclasses]
      rcases List.eq_nil_or_concat b with rfl | ⟨b, l, rfl⟩
      · exact Or.inl ⟨not_trailsOff (by simp), rfl⟩
      · refine Or.inr ⟨⟨classifyFrom none pre ++ (.opens f, o) :: b.map fun line => (.inside, line), l, by simp⟩,
          _, _, _, ?_, rfl⟩
        rw [joinLines_append (by simp) (List.cons_ne_nil _ _), joinLines_singleton, ← String.ofList_append]

end Classes

section Texts

variable {s : List Char}

theorem isLine_unwrapClassified (hreturn : '\r' ∉ s) {q : LineClass × List Char} (hq : q ∈ classifiedLines s) :
    IsLine (unwrapClassified q) := by
  have hmem : q.2 ∈ lines s := by
    rw [← map_snd_classifyFrom none (lines s)]
    exact List.mem_map_of_mem hq
  have hnot {c : Char} (hc : c ∉ q.2) (hblank : c ≠ ' ') : c ∉ unwrapClassified q := by
    intro hin
    rw [unwrapClassified] at hin
    split at hin
    · exact (mem_unwrapLine hin).elim hc hblank
    · exact hc hin
  refine ⟨hnot (not_mem_of_mem_lines hmem) (by decide), fun hlast => ?_⟩
  exact hnot (fun hin => hreturn (mem_of_mem_lines hmem hin)) (by decide) (List.mem_of_getLast? hlast)

theorem getLast?_unwrapClassified (xs : List (LineClass × List Char)) :
    (xs.map unwrapClassified).getLast? = some [] ↔ (xs.map Prod.snd).getLast? = some [] := by
  rw [List.getLast?_map, List.getLast?_map]
  cases xs.getLast? with
  | none => simp
  | some q =>
      rw [Option.map_some, Option.map_some, Option.some_inj, Option.some_inj, unwrapClassified]
      split
      · exact unwrapLine_eq_nil_iff
      · rfl

theorem classifyFrom_dropLast (fence : Option Fence) (ls : List (List Char)) :
    classifyFrom fence ls.dropLast = (classifyFrom fence ls).dropLast := by
  rcases List.eq_nil_or_concat ls with rfl | ⟨ls, l, rfl⟩
  · rfl
  · rw [List.concat_eq_append, List.dropLast_concat, classifyFrom_append]
    exact List.dropLast_concat.symm

theorem classifiedLines_unwrapParameters (hreturn : '\r' ∉ s) :
    classifiedLines (unwrapParameters s) =
      (if (lines s).getLast? = some [] then (classifiedLines s).dropLast else classifiedLines s).map
        fun q => (q.1, unwrapClassified q) := by
  have hlines : ∀ line ∈ (classifiedLines s).map unwrapClassified, IsLine line := by
    intro line hline
    obtain ⟨q, hq, rfl⟩ := List.mem_map.mp hline
    exact isLine_unwrapClassified hreturn hq
  have hunwrap := classifyFrom_unwrap none (lines s)
  have hlast := getLast?_unwrapClassified (classifiedLines s)
  rw [classifiedLines, map_snd_classifyFrom] at hlast
  rw [classifiedLines, unwrapParameters_classified, lines_joinLines_eq hlines, classifiedLines]
  by_cases hends : (lines s).getLast? = some []
  · rw [if_pos (hlast.mpr hends), if_pos hends, classifyFrom_dropLast]
    exact (congrArg List.dropLast hunwrap).trans List.map_dropLast.symm
  · rw [if_neg fun h => hends (hlast.mp h), if_neg hends]
    exact hunwrap

theorem codeBlocks_unwrapParameters (hreturn : '\r' ∉ s) :
    (¬ TrailsOff (classifiedLines s) → codeBlocks (unwrapParameters s) = codeBlocks s) ∧
    (TrailsOff (classifiedLines s) → ∃ blocks language content,
      codeBlocks s = blocks ++ [⟨language, content ++ "\n"⟩] ∧
      codeBlocks (unwrapParameters s) = blocks ++ [⟨language, content⟩]) := by
  rw [codeBlocks, classifiedLines_unwrapParameters hreturn, codeBlocksIn_unwrap, codeBlocks]
  by_cases hends : (lines s).getLast? = some []
  · obtain ⟨init, hinit⟩ := List.getLast?_eq_some_iff.mp hends
    rw [if_pos hends, classifiedLines, ← classifyFrom_dropLast, hinit, List.dropLast_concat]
    rcases codeBlocksIn_concat_nil init with ⟨hkept, hsame⟩ | ⟨htrails, hless⟩
    · exact ⟨fun _ => hsame.symm, fun h => absurd h hkept⟩
    · exact ⟨fun h => absurd htrails h, fun _ => hless⟩
  · have hkept : ¬ TrailsOff (classifiedLines s) := by
      rintro ⟨ys, l, htrails⟩
      apply hends
      rw [← map_snd_classifyFrom none (lines s), ← classifiedLines, htrails]
      simp
    rw [if_neg hends]
    exact ⟨fun _ => rfl, fun h => absurd h hkept⟩

end Texts

/-- Taking the backticks around parameters away changes neither the parameters of a text nor its code. In a text
without carriage returns each line but an empty last one keeps its place and class, and the code blocks are the same;
only one that trails off loses that line. -/
theorem unwrapParameters_keeps (s : List Char) :
    placeholders (String.ofList (unwrapParameters s)) = placeholders (String.ofList s) ∧
    ('\r' ∉ s →
      classifiedLines (unwrapParameters s) =
        (if (lines s).getLast? = some [] then (classifiedLines s).dropLast else classifiedLines s).map
          (fun q => (q.1, unwrapClassified q)) ∧
      (¬ TrailsOff (classifiedLines s) → codeBlocks (unwrapParameters s) = codeBlocks s) ∧
      (TrailsOff (classifiedLines s) → ∃ blocks language content,
        codeBlocks s = blocks ++ [⟨language, content ++ "\n"⟩] ∧
        codeBlocks (unwrapParameters s) = blocks ++ [⟨language, content⟩])) := by
  refine ⟨?_, fun hreturn => ⟨classifiedLines_unwrapParameters hreturn, codeBlocks_unwrapParameters hreturn⟩⟩
  rw [placeholders, placeholders, String.toList_ofList, String.toList_ofList, placeholdersIn_unwrapParameters]

def tickedText : List Char := "`\x7ba\x7d`\n```\n`\x7bb\x7d`\n```\n-> `\x7bc\x7d`".toList

theorem unwrapParameters_keeps_tickedText :
    unwrapParameters tickedText = "\x7ba\x7d\n```\n`\x7bb\x7d`\n```\n-> \x7bc\x7d".toList ∧
      '\r' ∉ tickedText ∧ codeBlocks (unwrapParameters tickedText) = codeBlocks tickedText := by
  refine ⟨by decide, by decide, ((unwrapParameters_keeps tickedText).2 (by decide)).2.1 ?_⟩
  rintro ⟨ys, l, h⟩
  have hmem : (LineClass.inside, []) ∈ classifiedLines tickedText := by simp [h]
  exact absurd hmem (by decide)

def trailingText : List Char := "```\na\n\n".toList

theorem trailingText_loses_line : '\r' ∉ trailingText ∧ TrailsOff (classifiedLines trailingText) ∧
    codeBlocks trailingText = [⟨none, "a\n"⟩] ∧ codeBlocks (unwrapParameters trailingText) = [⟨none, "a"⟩] :=
  ⟨by decide, ⟨[(.opens ⟨'\x60', 3⟩, "```".toList)], ['a'], by decide⟩, by decide, by decide⟩

end BookCompiler.Markdown
