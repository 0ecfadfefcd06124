import BookCompiler.Proofs.Markdown.Page
import BookCompiler.Proofs.Text.Words

namespace BookCompiler.Markdown

open Text

/-- The lines on which something stands, without the blanks around it. A reader of lines sees no more of a text. -/
def marks (ls : List (List Char)) : List (List Char) := (ls.map trim).filter (· ≠ [])

theorem marks_append (ls ms : List (List Char)) : marks (ls ++ ms) = marks ls ++ marks ms := by
  rw [marks, List.map_append, List.filter_append]
  rfl

theorem marks_cons (l : List Char) (ls : List (List Char)) : marks (l :: ls) = marks [l] ++ marks ls := marks_append [l] ls

theorem marks_cons_of_blank {l : List Char} (ls : List (List Char)) (h : trim l = []) : marks (l :: ls) = marks ls := by
  simp [marks, h]

theorem marks_cons_of_ne_nil {l : List Char} (ls : List (List Char)) (h : trim l ≠ []) :
    marks (l :: ls) = trim l :: marks ls := by
  simp [marks, h]

theorem marks_congr {l m : List Char} (ls : List (List Char)) (h : trim l = trim m) : marks (l :: ls) = marks (m :: ls) := by
  simp [marks, h]

section Text

def textMarks (s : List Char) : List (List Char) := marks (lines s)

theorem textMarks_joinLines {ls : List (List Char)} (h : ∀ l ∈ ls, '\n' ∉ l) : textMarks (joinLines ls) = marks ls := by
  induction ls with
  | nil => rfl
  | cons l ls ih =>
      obtain ⟨hl, hls⟩ := List.forall_mem_cons.mp h
      by_cases hnil : ls = []
      · rw [hnil, joinLines_singleton, textMarks]
        by_cases hblank : l = []
        · rw [hblank]
          rfl
        · rw [lines_of_not_mem hl hblank]
      · obtain ⟨m, hm, htrim⟩ := lines_append_feed (joinLines ls) hl
        rw [joinLines_cons l hnil, textMarks, hm, marks_congr _ htrim, marks_cons, marks_cons l ls]
        exact congrArg _ (ih hls)

theorem textMarks_append (s t : List Char) : textMarks (s ++ '\n' :: t) = textMarks s ++ textMarks t := by
  obtain ⟨ls, hls, hlines, rfl⟩ := exists_joinLines s
  obtain ⟨ms, hms, hmines, rfl⟩ := exists_joinLines t
  rw [← joinLines_append hls hms, textMarks_joinLines (List.forall_mem_append.mpr ⟨hlines, hmines⟩),
    textMarks_joinLines hlines, textMarks_joinLines hmines, marks_append]

theorem textMarks_cons_blank {c : Char} (s : List Char) (h : isBlank c = true) : textMarks (c :: s) = textMarks s := by
  by_cases hc : c = '\n'
  · rw [hc]
    exact textMarks_append [] s
  · obtain ⟨ls, hls, hlines, rfl⟩ := exists_joinLines s
    obtain ⟨l, ls, rfl⟩ := List.exists_cons_of_ne_nil hls
    obtain ⟨hl, hrest⟩ := List.forall_mem_cons.mp hlines
    have hcl : '\n' ∉ c :: l := fun hmem => (List.mem_cons.mp hmem).elim (fun e => hc e.symm) hl
    rw [cons_joinLines, textMarks_joinLines (List.forall_mem_cons.mpr ⟨hcl, hrest⟩), textMarks_joinLines hlines]
    exact marks_congr ls (trim_cons_blank l h)

theorem textMarks_concat_blank {c : Char} (s : List Char) (h : isBlank c = true) : textMarks (s ++ [c]) = textMarks s := by
  by_cases hc : c = '\n'
  · rw [hc, textMarks_append s []]
    exact List.append_nil _
  · obtain ⟨ls, hls, hlines, rfl⟩ := exists_joinLines s
    obtain ⟨ls, l, rfl⟩ := (List.eq_nil_or_concat' ls).resolve_left hls
    obtain ⟨hrest, hl⟩ := List.forall_mem_append.mp hlines
    have hjoin : joinLines (ls ++ [l]) ++ [c] = joinLines (ls ++ [l ++ [c]]) := by
      by_cases hnil : ls = []
      · rw [hnil, List.nil_append, List.nil_append, joinLines_singleton, joinLines_singleton]
      · rw [joinLines_append hnil (by simp), joinLines_append hnil (by simp), joinLines_singleton, joinLines_singleton,
          List.append_assoc]
        rfl
    have hlc : '\n' ∉ l ++ [c] := by
      rw [List.mem_append, List.mem_singleton, not_or]
      exact ⟨hl l List.mem_cons_self, fun e => hc e.symm⟩
    rw [hjoin, textMarks_joinLines (List.forall_mem_append.mpr ⟨hrest, by simpa using hlc⟩), textMarks_joinLines hlines,
      marks_append, marks_append, marks_congr [] (trim_append_blank l h)]

theorem textMarks_trim (s : List Char) : textMarks (trim s) = textMarks s := by
  have hstart : textMarks (trimStart s) = textMarks s := by
    induction s with
    | nil => rfl
    | cons c s ih =>
        by_cases hc : isBlank c = true
        · rw [trimStart_cons_blank s hc, ih, textMarks_cons_blank s hc]
        · rw [trimStart, List.dropWhile_cons_of_neg hc]
  have hend (t : List Char) : textMarks (trimEnd t) = textMarks t := by
    induction t using List.reverseRecOn with
    | nil => rfl
    | append_singleton t c ih =>
        by_cases hc : isBlank c = true
        · rw [trimEnd_append_blank t hc, ih, textMarks_concat_blank t hc]
        · rw [trimEnd_eq_self]
          intro d hd
          rw [List.getLast?_concat] at hd
          cases hd
          simpa using hc
  rw [trim, hend, hstart]

end Text

section Scan

theorem trimEnd_cons {c : Char} (s : List Char) (h : isBlank c = false) : trimEnd (c :: s) = c :: trimEnd s := by
  rw [trimEnd, trimEnd, dropEndWhile, dropEndWhile, List.reverse_cons, List.dropWhile_append]
  split
  · rename_i hs
    rw [List.isEmpty_iff.mp hs, List.dropWhile_cons_of_neg (by simp [h])]
    rfl
  · rw [List.reverse_append]
    rfl

theorem takeWhile_trimEnd {p : Char → Bool} (h : ∀ c, p c = true → isBlank c = false) (s : List Char) :
    (trimEnd s).takeWhile p = s.takeWhile p := by
  induction s with
  | nil => rfl
  | cons c s ih =>
      by_cases hc : p c = true
      · rw [trimEnd_cons s (h c hc), List.takeWhile_cons_of_pos hc, List.takeWhile_cons_of_pos hc, ih]
      · rw [List.takeWhile_cons_of_neg hc]
        obtain ⟨t, ht⟩ : trimEnd (c :: s) <+: c :: s := dropEndWhile_isPrefix isBlank _
        cases hend : trimEnd (c :: s) with
        | nil => rfl
        | cons d u =>
            rw [hend] at ht
            rw [(List.cons.inj ht).1, List.takeWhile_cons_of_neg hc]

theorem open?_trim (line : List Char) : Fence.open? (trim line) = Fence.open? line := by
  unfold Fence.open?
  rw [trimStart_eq_self (trim_trimmed line).1, trim]
  cases hstart : trimStart line with
  | nil => rfl
  | cons c rest =>
      have hc : isBlank c = false := head?_dropWhile isBlank line c (by rw [← trimStart, hstart]; rfl)
      have hrun : (trimEnd rest).takeWhile (· = c) = rest.takeWhile (· = c) :=
        takeWhile_trimEnd (fun d hd => by rwa [of_decide_eq_true hd]) rest
      rw [trimEnd_cons rest hc]
      dsimp only
      rw [hrun]

theorem step_trim (state : ScanState) (line : List Char) : state.step (trim line) = state.step line := by
  have htrim : trim (trim line) = trim line := (trim_trimmed line).trim_eq
  cases state with
  | markdown => rw [ScanState.step, ScanState.step, open?_trim, htrim]
  | code f => rw [ScanState.step, ScanState.step, Fence.isClosedBy, Fence.isClosedBy, htrim]
  | comment => rw [ScanState.step, ScanState.step, htrim]

def ScanState.Proper : ScanState → Prop
  | code f => f.length ≠ 0
  | _ => True

theorem ScanState.Proper.step {state : ScanState} (h : state.Proper) (line : List Char) : (state.step line).1.Proper := by
  cases state with
  | markdown =>
      unfold ScanState.step
      dsimp only
      split
      · rename_i f hf
        unfold Fence.open? at hf
        split at hf
        · cases hf
        · dsimp only at hf
          split at hf
          · cases hf
            exact Nat.succ_ne_zero _
          · cases hf
      · split <;> trivial
  | code f =>
      unfold ScanState.step
      dsimp only
      split
      · trivial
      · exact h
  | comment =>
      unfold ScanState.step
      dsimp only
      split <;> trivial

theorem step_blank {state : ScanState} (hstate : state.Proper) {line : List Char} (h : trim line = []) :
    state.step line = (state, false) := by
  rw [← step_trim, h]
  cases state with
  | markdown => rfl
  | code f =>
      have hlength : f.length ≠ 0 := hstate
      have hopen : f.isClosedBy [] = false := by
        simp [Fence.isClosedBy, trim, trimStart, trimEnd, dropEndWhile, hlength]
      rw [ScanState.step, hopen]
      rfl
  | comment => rfl

theorem head?_of_headingLevel? {line : List Char} {level : Nat} (h : headingLevel? line = some level) :
    (trim line).head? = some '#' := by
  unfold headingLevel? at h
  cases hline : trim line with
  | nil => simp [hline] at h
  | cons c s =>
      by_cases hc : c = '#'
      · rw [hc]
        rfl
      · simp [hline, hc] at h

theorem step_of_sign {line : List Char} (h : (trim line).head? = some '#') :
    ScanState.markdown.step line = (.markdown, (headingLevel? line).isSome) := by
  obtain ⟨s, hs⟩ := List.head?_eq_some_iff.mp h
  have hblank : isBlank '#' = false := rfl
  have hopen : Fence.open? line = none := by
    rw [← open?_trim, hs, Fence.open?, trimStart, List.dropWhile_cons_of_neg (by simp [hblank])]
    rfl
  have hcomment : commentStart.isPrefixOf (trim line) = false := by
    rw [hs]
    rfl
  simp [ScanState.step, hopen, hcomment, headingLevel?_trim]

theorem step_heading {state : ScanState} {line : List Char} (h : (state.step line).2 = true) :
    state = .markdown ∧ state.step line = (.markdown, true) ∧ (headingLevel? line).isSome = true := by
  cases state with
  | markdown =>
      unfold ScanState.step at h ⊢
      dsimp only at h ⊢
      split at h
      · cases h
      · split at h
        · cases h
        · rename_i hcomment
          dsimp only at h ⊢
          rw [if_neg hcomment, h]
          exact ⟨rfl, rfl, by rwa [← headingLevel?_trim]⟩
  | code f => cases h
  | comment => cases h

end Scan

section Cut

theorem cutAtHeadings_cons (state : ScanState) (line : List Char) (rest : List (List Char)) :
    cutAtHeadings state (line :: rest) =
      if (state.step line).2 then
        ([], (line :: (cutAtHeadings (state.step line).1 rest).1) :: (cutAtHeadings (state.step line).1 rest).2)
      else (line :: (cutAtHeadings (state.step line).1 rest).1, (cutAtHeadings (state.step line).1 rest).2) := rfl

theorem cutAtHeadings_marks {state : ScanState} (hstate : state.Proper) (ls : List (List Char)) :
    cutAtHeadings state (marks ls) = (marks (cutAtHeadings state ls).1, (cutAtHeadings state ls).2.map marks) := by
  induction ls generalizing state with
  | nil => rfl
  | cons l ls ih =>
      by_cases hl : trim l = []
      · rw [marks_cons_of_blank ls hl, cutAtHeadings_cons, step_blank hstate hl, ih hstate]
        exact Prod.ext (marks_cons_of_blank _ hl).symm rfl
      · have hrest := ih (hstate.step l)
        rw [marks_cons_of_ne_nil ls hl, cutAtHeadings_cons, cutAtHeadings_cons, step_trim, hrest]
        split
        · rw [List.map_cons, marks_cons_of_ne_nil _ hl]
          rfl
        · rw [marks_cons_of_ne_nil _ hl]

def Rests (state : ScanState) (body : List (List Char)) : Prop := cutAtHeadings state body = (body, [])

/-- No line of a text begins a section, and whatever is open at its end, the next line is read as ever. -/
def Passes (state : ScanState) (body : List (List Char)) : Prop :=
  ∀ rest, cutAtHeadings state (body ++ rest) =
    (body ++ (cutAtHeadings .markdown rest).1, (cutAtHeadings .markdown rest).2)

/-- Texts between headings, the first one read from a state. All but the last leave nothing open. -/
def Chained (state : ScanState) : List (List (List Char)) → Prop
  | [] => True
  | [body] => Rests state body
  | body :: next :: bodies => Passes state body ∧ Chained .markdown (next :: bodies)

theorem Rests.cons {state : ScanState} {line : List Char} {body : List (List Char)} (hline : (state.step line).2 = false)
    (h : Rests (state.step line).1 body) : Rests state (line :: body) := by
  rw [Rests, cutAtHeadings_cons, hline, h]
  rfl

theorem Passes.cons {state : ScanState} {line : List Char} {body : List (List Char)} (hline : (state.step line).2 = false)
    (h : Passes (state.step line).1 body) : Passes state (line :: body) := by
  intro rest
  rw [List.cons_append, cutAtHeadings_cons, hline, h rest]
  rfl

theorem Chained.cons {state : ScanState} {line : List Char} {body : List (List Char)} {bodies : List (List (List Char))}
    (hline : (state.step line).2 = false) (h : Chained (state.step line).1 (body :: bodies)) :
    Chained state ((line :: body) :: bodies) := by
  cases bodies with
  | nil => exact Rests.cons hline h
  | cons next bodies => exact ⟨Passes.cons hline h.1, h.2⟩

/-- A text falls into what stands before its first heading and pairs of a heading and what stands below it. -/
theorem cutAtHeadings_chained (state : ScanState) (ls : List (List Char)) :
    ∃ sheets : List (List Char × List (List Char)),
      (cutAtHeadings state ls).2 = sheets.map (fun q => q.1 :: q.2) ∧
      (∀ q ∈ sheets, (headingLevel? q.1).isSome = true) ∧
      Chained state ((cutAtHeadings state ls).1 :: sheets.map Prod.snd) := by
  induction ls generalizing state with
  | nil => exact ⟨[], rfl, by simp, rfl⟩
  | cons line rest ih =>
      obtain ⟨sheets, hgroups, hlevels, hchained⟩ := ih (state.step line).1
      rw [cutAtHeadings_cons]
      cases hheading : (state.step line).2 with
      | false => exact ⟨sheets, hgroups, hlevels, hchained.cons hheading⟩
      | true =>
          obtain ⟨rfl, hstep, hlevel⟩ := step_heading hheading
          rw [hstep] at hgroups hchained ⊢
          refine ⟨(line, (cutAtHeadings .markdown rest).1) :: sheets, ?_, ?_, ?_⟩
          · rw [List.map_cons, ← hgroups]
            rfl
          · exact List.forall_mem_cons.mpr ⟨hlevel, hlevels⟩
          · exact ⟨fun _ => rfl, hchained⟩

end Cut

end BookCompiler.Markdown
