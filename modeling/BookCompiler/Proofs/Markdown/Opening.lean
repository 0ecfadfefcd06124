import BookCompiler.Proofs.Markdown.Block
import BookCompiler.Proofs.Markdown.Division

namespace BookCompiler.Markdown

open Text

/-- A line that begins like a heading and is none. -/
def FalseHeading (line : List Char) : Prop := (trim line).head? = some '#' ∧ headingLevel? line = none

/-- A text whose first line, blank ones apart, begins like a heading and is none. -/
def BeginsFalsely (s : List Char) : Prop := ∃ line ∈ (lines (trim s)).head?, FalseHeading line

section Lines

theorem falseHeading_trim {line : List Char} : FalseHeading (trim line) ↔ FalseHeading line := by
  rw [FalseHeading, FalseHeading, headingLevel?_trim, (trim_trimmed line).trim_eq]

theorem textMarks_eq_nil_iff {s : List Char} : textMarks s = [] ↔ trim s = [] := by
  rw [← textMarks_trim]
  cases htrim : trim s with
  | nil => simp [textMarks, marks, lines]
  | cons c t =>
      obtain ⟨m, ms, hmarks, -⟩ := exists_textMarks_cons t ((trim_trimmed s).1 c (by rw [htrim]; rfl))
      simp [hmarks]

theorem head?_of_textMarks {s m : List Char} {ms : List (List Char)} (h : textMarks s = m :: ms) :
    (trim s).head? = m.head? := by
  rw [← textMarks_trim] at h
  cases htrim : trim s with
  | nil =>
      rw [htrim] at h
      cases h
  | cons c t =>
      obtain ⟨n, ns, hmarks, hhead⟩ := exists_textMarks_cons t ((trim_trimmed s).1 c (by rw [htrim]; rfl))
      rw [htrim, hmarks] at h
      rw [← (List.cons.inj h).1, hhead]
      rfl

theorem beginsFalsely_iff {s : List Char} : BeginsFalsely s ↔ ∃ m ∈ (textMarks s).head?, FalseHeading m := by
  rw [BeginsFalsely, ← textMarks_trim]
  cases htrim : trim s with
  | nil => simp [textMarks, marks, lines]
  | cons c t =>
      have hc : isBlank c = false := (trim_trimmed s).1 c (by rw [htrim]; rfl)
      obtain ⟨l, ls, hlines⟩ := exists_lines_cons t hc
      have hne : trim (c :: l) ≠ [] := by
        intro e
        have hhead := head?_trim_cons l hc
        rw [e] at hhead
        cases hhead
      rw [textMarks, hlines, marks_cons_of_ne_nil ls hne]
      simp [falseHeading_trim]

theorem textMarks_opening (s : List Char) : textMarks (opening s) = beforeHeadings .markdown (textMarks s) := by
  obtain ⟨parts, hcut, -, -⟩ := cutAtHeadings_parts .markdown (lines s)
  obtain ⟨parts', hcut', -, -⟩ := cutAtHeadings_parts .markdown (textMarks s)
  have hproper : ScanState.Proper .markdown := trivial
  have hboth := cutAtHeadings_marks hproper (lines s)
  rw [← textMarks, hcut, hcut', Prod.mk.injEq] at hboth
  have hbefore : ∀ l ∈ beforeHeadings .markdown (lines s), '\n' ∉ l :=
    fun l hl => not_mem_of_mem_lines ((beforeHeadings_isPrefix _ _).subset hl)
  rw [opening, textMarks_trim, textMarks_joinLines hbefore, hboth.1]

theorem trim_opening (s : List Char) : trim (opening s) = opening s := (trim_trimmed _).trim_eq

/-- What stands before the first heading begins like a heading only if the whole text does so falsely. -/
theorem head?_opening_iff {s : List Char} : (opening s).head? = some '#' ↔ BeginsFalsely s := by
  have hmarks := textMarks_opening s
  rw [beginsFalsely_iff]
  cases hs : textMarks s with
  | nil =>
      rw [hs, beforeHeadings, textMarks_eq_nil_iff, trim_opening] at hmarks
      simp [hmarks]
  | cons m ms =>
      have hm : trim m = m := trim_eq_of_marks hs
      rw [hs, beforeHeadings] at hmarks
      cases hlevel : headingLevel? m with
      | some level =>
          rw [hlevel, if_pos ⟨rfl, rfl⟩, textMarks_eq_nil_iff, trim_opening] at hmarks
          simp [hmarks, FalseHeading, hlevel]
      | none =>
          rw [hlevel, if_neg (by simp)] at hmarks
          have hhead := head?_of_textMarks hmarks
          rw [trim_opening] at hhead
          simp [hhead, FalseHeading, hlevel, hm]

end Lines

section Read

theorem readSection_heading {heading : List Char} {level : Nat} (hline : '\n' ∉ heading)
    (hlevel : headingLevel? heading = some level) :
    readSection (trim heading) =
      .ok { title := String.ofList (trim ((trim heading).drop level)), level, content := "" } := by
  have htrim : trim (trim heading) = trim heading := (trim_trimmed heading).trim_eq
  have hsplit : splitOnce (· = '\n') (trim heading) = none :=
    splitOnce_eq_none_iff.mpr fun c hc => decide_eq_false fun e => hline (e ▸ mem_trim hc)
  rw [readSection, htrim, hsplit]
  simp only [Option.getD_none, headingLevel?_trim, hlevel, htrim]
  rfl

theorem readSection_joinLines {heading : List Char} {level : Nat} (below : List (List Char)) (hline : '\n' ∉ heading)
    (hlevel : headingLevel? heading = some level) :
    readSection (trim (joinLines (heading :: below))) =
      .ok { title := String.ofList (trim ((trim heading).drop level)), level
            content := String.ofList (trim (joinLines below)) } := by
  by_cases hblank : trim (joinLines below) = []
  · have htext : trim (joinLines (heading :: below)) = trim heading := by
      by_cases hbelow : below = []
      · rw [hbelow, joinLines_singleton]
      · rw [joinLines_cons heading hbelow]
        exact trim_append_blanks heading (List.forall_mem_cons.mpr ⟨by decide, trim_eq_nil_iff.mp hblank⟩)
    rw [htext, hblank, readSection_heading hline hlevel]
  · have hbelow : below ≠ [] := by
      rintro rfl
      exact hblank rfl
    have hheading : trim heading ≠ [] := by
      intro e
      have hhead := head?_of_headingLevel? hlevel
      rw [e] at hhead
      cases hhead
    have hfirst : ∀ c ∈ trimStart heading, decide (c = '\n') = false :=
      fun c hc => decide_eq_false fun e => hline (e ▸ (List.dropWhile_suffix _).subset hc)
    have hsame : headingLevel? (trimStart heading) = some level := by
      rw [← headingLevel?_trim, trim_trimStart, headingLevel?_trim, hlevel]
    rw [readSection, (trim_trimmed _).trim_eq, joinLines_cons heading hbelow, trim_append_feed hheading hblank,
      splitOnce_append _ hfirst (by rfl)]
    simp only [Option.getD_some, hsame, trim_trimStart, trim_trimEnd]

theorem noHeading_of_readSection {s : List Char} {e : ParseError} (h : readSection s = .error e) :
    e = .structural (.noHeading (String.ofList (trim s))) := by
  unfold readSection at h
  dsimp only at h
  split at h
  · exact (Except.error.inj h).symm
  · cases h

theorem readSection_trim (s : List Char) : readSection (trim s) = readSection s := by
  rw [readSection, readSection, (trim_trimmed s).trim_eq]

theorem readSection_opening {s : List Char} (h : BeginsFalsely s) :
    readSection (opening s) = .error (.structural (.noHeading (String.ofList (opening s)))) := by
  have hquiet : headingsFrom .markdown (textMarks (opening s)) = [] := by
    rw [textMarks_opening]
    exact headingsFrom_beforeHeadings .markdown _
  cases hmarks : textMarks (opening s) with
  | nil =>
      rw [textMarks_eq_nil_iff, trim_opening] at hmarks
      have hfirst := head?_opening_iff.mpr h
      rw [hmarks] at hfirst
      cases hfirst
  | cons m ms =>
      rw [hmarks, headingsFrom] at hquiet
      rcases readSection_of_marks hmarks with ⟨-, text, hread⟩ | ⟨t, -, hreads⟩
      · rw [hread, noHeading_of_readSection hread, trim_opening]
      · rw [if_pos ⟨rfl, by rw [hreads.level]; rfl⟩] at hquiet
        cases hquiet

theorem readSection_titled {s : List Char} (h : ¬ BeginsFalsely s) :
    readSection (openingTitle s ++ opening s) =
      .ok { title := "Untitled", level := 1, content := String.ofList (opening s) } := by
  have htitle : openingTitle s = "# Untitled\n\n".toList := by
    rw [openingTitle, if_neg fun hfirst => h (head?_opening_iff.mp hfirst)]
  have hlines : openingTitle s ++ opening s = joinLines ["# Untitled".toList, [], opening s] := by
    rw [htitle, joinLines_cons_cons, joinLines_cons_cons, joinLines_singleton]
    rfl
  have hlevel : headingLevel? "# Untitled".toList = some 1 := by decide
  have hbelow : trim (joinLines [[], opening s]) = opening s := by
    rw [trim_joinLines_cons_nil, joinLines_singleton, trim_opening]
  rw [hlines, ← readSection_trim, readSection_joinLines _ (by decide) hlevel, hbelow]
  rfl

theorem readSection_of_mem_sections {s t : List Char} (d : Division (lines s)) (h : t ∈ d.sections) :
    ∃ u, readSection t = .ok u := by
  obtain ⟨q, hq, rfl⟩ := List.mem_map.mp h
  obtain ⟨hline, hsome⟩ := d.isSome_of_mem hq
  obtain ⟨level, hlevel⟩ := Option.isSome_iff_exists.mp hsome
  exact ⟨_, readSection_joinLines q.2 (not_mem_of_mem_lines hline) hlevel⟩

theorem readSection_of_mem_splitSections {s t : List Char} (h : ¬ BeginsFalsely s) (ht : t ∈ splitSections s) :
    ∃ u, readSection t = .ok u := by
  obtain ⟨d, hsplit⟩ := splitSections_division s
  rw [hsplit, List.mem_append] at ht
  rcases ht with ht | ht
  · split at ht
    · cases ht
    · rw [List.mem_singleton.mp ht]
      exact ⟨_, readSection_titled h⟩
  · exact readSection_of_mem_sections d ht

theorem splitSections_of_beginsFalsely {s : List Char} (h : BeginsFalsely s) :
    ∃ d : Division (lines s), splitSections s = opening s :: d.sections := by
  obtain ⟨d, hsplit⟩ := splitSections_division s
  have hfirst := head?_opening_iff.mpr h
  have hne : opening s ≠ [] := by
    intro e
    rw [e] at hfirst
    cases hfirst
  refine ⟨d, ?_⟩
  rw [hsplit, if_neg hne, openingTitle, if_pos hfirst]
  rfl

theorem flatten_noHeading_iff {s : List Char} :
    (∃ text, flatten s = .error (.structural (.noHeading text))) ↔ BeginsFalsely s := by
  constructor
  · rintro ⟨text, hflatten⟩
    by_contra h
    obtain ⟨ts, hts⟩ := exists_mapM_ok fun t ht => readSection_of_mem_splitSections h ht
    rw [flatten, hts] at hflatten
    cases hflatten
  · intro h
    obtain ⟨d, hsplit⟩ := splitSections_of_beginsFalsely h
    refine ⟨String.ofList (opening s), ?_⟩
    rw [flatten, hsplit, List.mapM_cons, readSection_opening h]
    rfl

end Read

section Unwrap

def leader (line : List Char) : List Char := firstWord (trimStart line)

theorem leader_eq (line : List Char) : leader line = firstWord (trim line) := by
  have hblank (c : Char) (hc : (!isBlank c) = true) : isBlank c = false := by simpa using hc
  exact (takeWhile_trimEnd hblank (trimStart line)).symm

theorem exists_signs (text : List Char) :
    ∃ signs rest, text = signs ++ rest ∧ (∀ c ∈ signs, c = '#') ∧ ∀ c ∈ rest.head?, c ≠ '#' := by
  refine ⟨text.takeWhile (· = '#'), text.dropWhile (· = '#'), List.takeWhile_append_dropWhile.symm, ?_, ?_⟩
  · intro c hc
    simpa using List.mem_takeWhile_imp hc
  · intro c hc
    simpa using head?_dropWhile (· = '#') text c hc

theorem isSome_headingLevel?_iff {line : List Char} : (headingLevel? line).isSome = true ↔
    leader line ≠ [] ∧ (leader line).length ≤ deepestHeading ∧ ∀ c ∈ leader line, c = '#' := by
  obtain ⟨signs, rest, htext, hsigns, hrest⟩ := exists_signs (trim line)
  have hword : firstWord (signs ++ rest) = signs ++ firstWord rest := by
    apply List.takeWhile_append_of_pos
    intro c hc
    rw [hsigns c hc]
    rfl
  have htake : (signs ++ rest).takeWhile (· = '#') = signs := by
    rw [List.takeWhile_append_of_pos (by simpa using hsigns)]
    cases rest with
    | nil => exact List.append_nil _
    | cons c rest => simp [hrest c rfl]
  rw [leader_eq, headingLevel?, htext, htake, hword, List.drop_left]
  cases rest with
  | nil => simpa [firstWord] using fun _ _ => hsigns
  | cons c rest =>
      cases hc : isBlank c with
      | true => simpa [firstWord, hc] using fun _ _ => hsigns
      | false => simpa [firstWord, hc] using fun _ => ⟨c, by simp, hrest c rfl⟩

theorem falseHeading_iff {line : List Char} : FalseHeading line ↔ (leader line).head? = some '#' ∧
    ¬ ((leader line).length ≤ deepestHeading ∧ ∀ c ∈ leader line, c = '#') := by
  have hhead : (trim line).head? = (leader line).head? := by
    rw [leader_eq]
    cases htrim : trim line with
    | nil => rfl
    | cons c s =>
        have hc : isBlank c = false := (trim_trimmed line).1 c (by rw [htrim]; rfl)
        simp [firstWord, hc]
  have hlevel : headingLevel? line = none ↔ ¬ (headingLevel? line).isSome = true := by simp
  rw [FalseHeading, hlevel, isSome_headingLevel?_iff, hhead]
  refine and_congr_right fun hsign => not_congr (and_iff_right ?_)
  intro e
  rw [e] at hsign
  cases hsign

/-- A text that begins with something else than a blank or a sign of headings. -/
def Solid (s : List Char) : Prop := ∃ c t, s = c :: t ∧ isBlank c = false ∧ c ≠ '#'

theorem falseHeading_append {r : List Char} (p : List Char) (h : Solid r) : FalseHeading (p ++ r) ↔
    if (trimStart p).all (!isBlank ·) then (trimStart p).head? = some '#' else FalseHeading p := by
  obtain ⟨c, t, rfl, hblank, hsign⟩ := h
  have hstart : trimStart (p ++ c :: t) = trimStart p ++ c :: t := by
    rw [trimStart, List.dropWhile_append, List.dropWhile_cons_of_neg (by simp [hblank])]
    split
    · rename_i hp
      rw [trimStart, List.isEmpty_iff.mp hp, List.nil_append]
    · rfl
  split
  · rename_i hp
    have hword : leader (p ++ c :: t) = trimStart p ++ c :: firstWord t := by
      rw [leader, hstart, firstWord, List.takeWhile_append_of_pos (List.all_eq_true.mp hp),
        List.takeWhile_cons_of_pos (by simp [hblank]), firstWord]
    have hmem : ¬ ∀ d ∈ trimStart p ++ c :: firstWord t, d = '#' := fun hall => hsign (hall c (by simp))
    rw [falseHeading_iff, hword, and_iff_left fun hall => hmem hall.2]
    cases trimStart p with
    | nil => simp [hsign]
    | cons d q => simp
  · rename_i hp
    have hword : leader (p ++ c :: t) = leader p := by
      rw [leader, leader, hstart, firstWord, List.takeWhile_append, if_neg]
      · rfl
      · intro hlength
        have hall := (List.takeWhile_prefix (!isBlank ·)).eq_of_length hlength
        rw [List.takeWhile_eq_self_iff] at hall
        exact hp (List.all_eq_true.mpr hall)
    rw [falseHeading_iff, falseHeading_iff, hword]

theorem solid_replaceAll {find? : List Char → Option (List Char × List Char)} {write : List Char → List Char}
    (hwrite : ∀ name, Solid (write name)) {s : List Char} (h : Solid s) : Solid (replaceAll find? write 0 s) := by
  obtain ⟨c, t, rfl, hblank, hsign⟩ := h
  rw [replaceAll, if_neg (not_not_intro rfl)]
  split
  · rename_i name rest _
    obtain ⟨d, u, hd, hdblank, hdsign⟩ := hwrite name
    exact ⟨d, _, by rw [hd, List.cons_append], hdblank, hdsign⟩
  · exact ⟨c, _, rfl, hblank, hsign⟩

/-- Taking backticks away changes a line only from its first backtick on, and leaves something solid there. -/
theorem exists_unwrapLine (line : List Char) :
    unwrapLine line = line ∨ ∃ p r r', line = p ++ r ∧ unwrapLine line = p ++ r' ∧ Solid r ∧ Solid r' := by
  have hparts : line.takeWhile (· ≠ '\x60') ++ line.dropWhile (· ≠ '\x60') = line := List.takeWhile_append_dropWhile
  have hfree : '\x60' ∉ line.takeWhile (· ≠ '\x60') := fun hmem => by simpa using List.mem_takeWhile_imp hmem
  have hfirst := head?_dropWhile (· ≠ '\x60') line
  generalize line.takeWhile (· ≠ '\x60') = p at hparts hfree
  generalize line.dropWhile (· ≠ '\x60') = r at hparts hfirst
  rw [← hparts, unwrapLine_append r hfree]
  cases r with
  | nil => exact Or.inl rfl
  | cons c r =>
      have hc : c = '\x60' := by simpa using hfirst c rfl
      have hsolid : Solid (c :: r) := ⟨c, r, rfl, by rw [hc]; decide, by rw [hc]; decide⟩
      refine Or.inr ⟨p, c :: r, _, rfl, rfl, hsolid, ?_⟩
      apply solid_replaceAll (fun name => ⟨_, _, rfl, by decide, by decide⟩)
      exact solid_replaceAll (fun name => ⟨_, _, rfl, by decide, by decide⟩) hsolid

theorem falseHeading_unwrapLine {line : List Char} : FalseHeading (unwrapLine line) ↔ FalseHeading line := by
  rcases exists_unwrapLine line with hsame | ⟨p, r, r', hline, hunwrap, hr, hr'⟩
  · rw [hsame]
  · rw [hunwrap, hline, falseHeading_append p hr, falseHeading_append p hr']

theorem trim_unwrapLine_eq_nil_iff {line : List Char} : trim (unwrapLine line) = [] ↔ trim line = [] := by
  have hsolid {p r : List Char} (hr : Solid r) : trim (p ++ r) ≠ [] := by
    obtain ⟨c, t, rfl, hblank, -⟩ := hr
    intro e
    rw [trim_eq_nil_iff.mp e c (by simp)] at hblank
    cases hblank
  rcases exists_unwrapLine line with hsame | ⟨p, r, r', hline, hunwrap, hr, hr'⟩
  · rw [hsame]
  · rw [hunwrap, hline]
    exact iff_of_false (hsolid hr') (hsolid hr)

theorem mem_replaceAll {find? : List Char → Option (List Char × List Char)} {write : List Char → List Char}
    {more : Nat} {s : List Char} {c : Char} (h : c ∈ replaceAll find? write more s) :
    c ∈ s ∨ ∃ t name rest, find? t = some (name, rest) ∧ c ∈ write name := by
  induction s generalizing more with
  | nil => cases h
  | cons d s ih =>
      rw [replaceAll] at h
      split at h
      · exact (ih h).imp_left (List.mem_cons_of_mem d)
      · split at h
        · rename_i name rest hfind
          rcases List.mem_append.mp h with h | h
          · exact Or.inr ⟨_, name, rest, hfind, h⟩
          · exact (ih h).imp_left (List.mem_cons_of_mem d)
        · rcases List.mem_cons.mp h with rfl | h
          · exact Or.inl List.mem_cons_self
          · exact (ih h).imp_left (List.mem_cons_of_mem d)

theorem isWordChar_of_ticked {read : List Char → Option (List Char × List Char)} {s name rest : List Char}
    (hread : ∀ t name rest, read t = some (name, rest) → ∀ c ∈ name, Name.isWordChar c = true)
    (h : ticked? read s = some (name, rest)) : ∀ c ∈ name, Name.isWordChar c = true := by
  unfold ticked? at h
  split at h
  · split at h
    · rename_i hfound
      cases h
      exact hread _ _ _ hfound
    · cases h
  · cases h

theorem isWordChar_of_bracedName {s name rest : List Char} (h : bracedName? s = some (name, rest)) :
    ∀ c ∈ name, Name.isWordChar c = true := (bracedName?_eq_some_iff.mp h).2.1

theorem isWordChar_of_returnMarker {s name rest : List Char} (h : returnMarker? s = some (name, rest)) :
    ∀ c ∈ name, Name.isWordChar c = true := by
  unfold returnMarker? at h
  split at h
  · exact isWordChar_of_bracedName h
  · cases h

theorem not_mem_unwrapLine {line : List Char} (h : '\n' ∉ line) : '\n' ∉ unwrapLine line := by
  have hfeed {name : List Char} (hname : ∀ c ∈ name, Name.isWordChar c = true) : '\n' ∉ bracedChars name := by
    intro hmem
    rw [bracedChars, List.mem_append, List.mem_cons] at hmem
    rcases hmem with (hmem | hmem) | hmem
    · exact absurd hmem (by decide)
    · exact absurd (hname _ hmem) (by decide)
    · exact absurd hmem (by decide)
  intro hmem
  rcases mem_replaceAll hmem with hmem | ⟨t, name, rest, hfind, hmem⟩
  · rcases mem_replaceAll hmem with hmem | ⟨t, name, rest, hfind, hmem⟩
    · exact h hmem
    · have hname := isWordChar_of_ticked (fun _ _ _ => isWordChar_of_returnMarker) hfind
      rcases List.mem_append.mp hmem with hmem | hmem
      · exact absurd hmem (by decide)
      · exact hfeed hname hmem
  · exact hfeed (isWordChar_of_ticked (fun _ _ _ => isWordChar_of_bracedName) hfind) hmem

def unwrapClassified : LineClass × List Char → List Char :=
  fun (c, line) => if c = .outside then unwrapLine line else line

theorem map_snd_classifyFrom (fence : Option Fence) (ls : List (List Char)) :
    (classifyFrom fence ls).map Prod.snd = ls := by
  induction ls generalizing fence with
  | nil => rfl
  | cons l ls ih => rw [classifyFrom, List.map_cons, ih]

theorem textMarks_unwrapParameters (s : List Char) :
    textMarks (unwrapParameters s) = marks ((classifyFrom none (lines s)).map unwrapClassified) := by
  apply textMarks_joinLines
  intro l hl
  obtain ⟨⟨c, line⟩, hline, rfl⟩ := List.mem_map.mp hl
  have hmem : line ∈ lines s := by
    rw [← map_snd_classifyFrom none (lines s)]
    exact List.mem_map_of_mem hline
  dsimp only
  split
  · exact not_mem_unwrapLine (not_mem_of_mem_lines hmem)
  · exact not_mem_of_mem_lines hmem

theorem exists_falseHeading_unwrap (ls : List (List Char)) :
    (∃ m ∈ (marks ((classifyFrom none ls).map unwrapClassified)).head?, FalseHeading m) ↔
      ∃ m ∈ (marks ls).head?, FalseHeading m := by
  induction ls with
  | nil => rfl
  | cons l ls ih =>
      rw [classifyFrom, List.map_cons]
      cases hopen : Fence.open? l with
      | none =>
          have hclass : classify none l = .outside := by rw [classify, hopen]
          have hkept : unwrapClassified (.outside, l) = unwrapLine l := rfl
          rw [hclass, hkept]
          by_cases hl : trim l = []
          · rw [marks_cons_of_blank _ (trim_unwrapLine_eq_nil_iff.mpr hl), marks_cons_of_blank _ hl]
            exact ih
          · rw [marks_cons_of_ne_nil _ fun e => hl (trim_unwrapLine_eq_nil_iff.mp e), marks_cons_of_ne_nil _ hl]
            simp [falseHeading_trim, falseHeading_unwrapLine]
      | some f =>
          have hclass : classify none l = .opens f := by rw [classify, hopen]
          have hkept : unwrapClassified (.opens f, l) = l := rfl
          have hl : trim l ≠ [] := by
            intro e
            rw [← open?_trim, e] at hopen
            cases hopen
          rw [hclass, hkept, marks_cons_of_ne_nil _ hl, marks_cons_of_ne_nil _ hl]
          simp

theorem beginsFalsely_unwrapParameters {s : List Char} : BeginsFalsely (unwrapParameters s) ↔ BeginsFalsely s := by
  rw [beginsFalsely_iff, beginsFalsely_iff, textMarks_unwrapParameters]
  exact exists_falseHeading_unwrap (lines s)

theorem BeginsFalsely.head? {s : List Char} (h : BeginsFalsely s) : (trim s).head? = some '#' := by
  obtain ⟨m, hm, hfalse⟩ := beginsFalsely_iff.mp h
  obtain ⟨ms, hmarks⟩ := List.head?_eq_some_iff.mp hm
  rw [head?_of_textMarks hmarks, ← hfalse.1, trim_eq_of_marks hmarks]

theorem not_beginsFalsely_titled (s : List Char) : ¬ BeginsFalsely ("# Untitled".toList ++ '\n' :: s) := by
  have htitle : textMarks "# Untitled".toList = ["# Untitled".toList] := by decide
  rw [beginsFalsely_iff, textMarks_append, htitle]
  rintro ⟨m, hm, hfalse⟩
  cases hm
  exact absurd hfalse.2 (by decide)

theorem beginsFalsely_wrapFlat {s : List Char} : BeginsFalsely (wrapFlat s) ↔ BeginsFalsely s := by
  rw [wrapFlat]
  split
  · rename_i hflat
    have hfirst : (trim s).head? ≠ some '#' := by
      rw [isFlat, Bool.and_eq_true, Bool.and_eq_true, bne_iff_ne] at hflat
      exact hflat.1.1
    refine iff_of_false ?_ fun h => hfirst h.head?
    simp only [List.append_assoc]
    exact not_beginsFalsely_titled _
  · rfl

end Unwrap

end BookCompiler.Markdown

namespace BookCompiler

open Text Markdown

theorem Book.prepare_noHeading_iff {source : String} :
    (∃ text, Book.prepare source = .error (.structural (.noHeading text))) ↔
      BeginsFalsely (removeComments source.toList) := by
  rw [prepare, flatten_noHeading_iff, beginsFalsely_unwrapParameters, beginsFalsely_wrapFlat]

theorem Book.invalidSection_of_sectionOf {s : Markdown.Section} {e : ParseError} (h : Book.sectionOf s = .error e) :
    ∃ cause, e = .invalidSection s.title cause := by
  unfold sectionOf at h
  dsimp only at h
  split at h
  · exact ⟨_, (Except.error.inj h).symm⟩
  · cases h

theorem Book.read_noHeading_iff {source : String} :
    (∃ text, Book.read source = .error (.structural (.noHeading text))) ↔
      BeginsFalsely (removeComments source.toList) := by
  rw [← prepare_noHeading_iff]
  constructor
  · rintro ⟨text, hread⟩
    rw [read] at hread
    cases hprepare : prepare source with
    | error e =>
        rw [hprepare] at hread
        exact ⟨text, congrArg Except.error (Except.error.inj hread)⟩
    | ok flat =>
        rw [hprepare] at hread
        dsimp only [bind, Except.bind] at hread
        rcases sectionize_flatten hprepare with hempty | ⟨sections, hsections⟩
        · rw [hempty] at hread
          cases hread
        · rw [hsections] at hread
          dsimp only at hread
          split at hread
          · rename_i e hmap
            have hfails : FailsAs (sections.rest.mapM sectionOf) fun e => ∃ title cause, e = .invalidSection title cause :=
              .mapM fun s _ e he => ⟨s.title, invalidSection_of_sectionOf he⟩
            obtain ⟨title, cause, rfl⟩ := hfails e hmap
            cases hread
          · cases hread
  · rintro ⟨text, hprepare⟩
    refine ⟨text, ?_⟩
    rw [read, hprepare]
    rfl

/-- The sections that a text is divided into can all be read, and what stands before its first heading is untitled,
unless the text begins with a line that begins like a heading and is none. Then the first section is the only one that
can not be read. A book is refused for a missing heading just if this happens to its text without comments. -/
theorem sections_readable (s : List Char) :
    ((∀ t ∈ splitSections s, ∃ u, readSection t = .ok u) ↔ ¬ BeginsFalsely s) ∧
    (opening s ≠ [] → ¬ BeginsFalsely s → ∃ t rest, splitSections s = t :: rest ∧
      readSection t = .ok { title := "Untitled", level := 1, content := String.ofList (opening s) }) ∧
    (BeginsFalsely s → ∃ rest, splitSections s = opening s :: rest ∧
      readSection (opening s) = .error (.structural (.noHeading (String.ofList (opening s)))) ∧
      ∀ t ∈ rest, ∃ u, readSection t = .ok u) ∧
    ∀ source : String, (∃ text, Book.read source = .error (.structural (.noHeading text))) ↔
      BeginsFalsely (removeComments source.toList) := by
  refine ⟨⟨fun hall hfalse => ?_, fun h t ht => readSection_of_mem_splitSections h ht⟩, fun hne h => ?_, fun h => ?_,
    fun source => Book.read_noHeading_iff⟩
  · obtain ⟨d, hsplit⟩ := splitSections_of_beginsFalsely hfalse
    obtain ⟨u, hu⟩ := hall (opening s) (by rw [hsplit]; exact List.mem_cons_self)
    rw [readSection_opening hfalse] at hu
    cases hu
  · obtain ⟨d, hsplit⟩ := splitSections_division s
    rw [if_neg hne, List.singleton_append] at hsplit
    exact ⟨_, _, hsplit, readSection_titled h⟩
  · obtain ⟨d, hsplit⟩ := splitSections_of_beginsFalsely h
    exact ⟨d.sections, hsplit, readSection_opening h, fun t ht => readSection_of_mem_sections d ht⟩

def tagBook : String := "#soups of the week\n\n## Recipe\n\nTell me a recipe\n"

theorem sections_readable_tagBook : BeginsFalsely tagBook.toList ∧
    ∃ rest, splitSections tagBook.toList = opening tagBook.toList :: rest ∧
      (∃ e, readSection (opening tagBook.toList) = .error e) ∧ ∀ t ∈ rest, ∃ u, readSection t = .ok u := by
  have hfalse : BeginsFalsely tagBook.toList := ⟨"#soups of the week".toList, by decide, by decide, by decide⟩
  obtain ⟨-, -, hfirst, -⟩ := sections_readable tagBook.toList
  obtain ⟨rest, hsplit, hread, hrest⟩ := hfirst hfalse
  exact ⟨hfalse, rest, hsplit, ⟨_, hread⟩, hrest⟩

/-- The tag is taken for the heading of a section, and is none when the section is read. -/
theorem tagBook_refused :
    (∃ t ∈ splitSections tagBook.toList, ∃ e, readSection t = .error e) ∧
      ∃ text, Book.read tagBook = .error (.structural (.noHeading text)) := by
  refine ⟨⟨"#soups of the week".toList, by decide, _, rfl⟩, "#soups of the week", by decide⟩

end BookCompiler
