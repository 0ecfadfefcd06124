import BookCompiler.Proofs.Markdown.Opening

namespace BookCompiler.Markdown

open Text

section Scan

variable {state : ScanState} {bodies : List (List (List Char))}

theorem Chained.of_cons {line : List Char} {body : List (List Char)} (h : Chained state ((line :: body) :: bodies)) :
    Chained (state.step line).1 (body :: bodies) := by
  have hquiet := h.quiet
  cases bodies with
  | nil =>
      have hcut : cutAtHeadings state (line :: body) = (line :: body, []) := h
      rw [cutAtHeadings_cons, hquiet, if_neg Bool.false_ne_true, Prod.mk.injEq, List.cons.injEq] at hcut
      exact Prod.ext hcut.1.2 hcut.2
  | cons next bodies =>
      refine ⟨fun rest => ?_, h.2⟩
      have hcut := h.1 rest
      rw [List.cons_append, cutAtHeadings_cons, hquiet, if_neg Bool.false_ne_true, Prod.mk.injEq, List.cons_append,
        List.cons.injEq] at hcut
      exact Prod.ext hcut.1.2 hcut.2

/-- What the marks of a text leave open, the text leaves open. -/
theorem Chained.of_marks_cons {body : List (List Char)} (hstate : state.Proper)
    (h : Chained state (marks body :: bodies)) : Chained state (body :: bodies) := by
  induction body generalizing state with
  | nil => exact h
  | cons line body ih =>
      by_cases hline : trim line = []
      · have hstep := step_blank hstate hline
        rw [marks_cons_of_blank body hline] at h
        apply Chained.cons
        · rw [hstep]
        · rw [hstep]
          exact ih hstate h
      · rw [marks_cons_of_ne_nil body hline] at h
        have hquiet := h.quiet
        have hrest := h.of_cons
        rw [step_trim] at hquiet hrest
        exact Chained.cons hquiet (ih (hstate.step line) hrest)

theorem Chained.of_marks (hstate : state.Proper) (h : Chained state (bodies.map marks)) : Chained state bodies := by
  induction bodies generalizing state with
  | nil => trivial
  | cons body bodies ih =>
      have hbody := Chained.of_marks_cons hstate h
      have hproper : ScanState.Proper .markdown := trivial
      cases bodies with
      | nil => exact hbody
      | cons next bodies => exact ⟨hbody.1, ih hproper h.tail⟩

end Scan

namespace Section

def below (t : Section) : List (List Char) := if t.content = "" then [] else [] :: t.content.toList.splitOn '\n'

def lines (t : Section) : List (List Char) := headingLine t.level t.title.toList :: t.below

/-- A section that is read back as it is written. -/
structure Sound (t : Section) : Prop where
  title : IsTitle t.title
  shallow : 0 < t.level ∧ t.level ≤ deepestHeading
  trimmed : Trimmed t.content.toList
  noReturn : '\r' ∉ t.content.toList

variable {t : Section}

theorem toList_write {signs : String} (h : signs.toList = List.replicate t.level '#') :
    (t.write signs).toList = joinLines t.lines := by
  have hheading : (signs ++ " " ++ t.title).toList = headingLine t.level t.title.toList := by
    simp [h, headingLine, Page.heading]
  rw [write, lines, below]
  by_cases hcontent : t.content = ""
  · rw [if_pos hcontent, if_pos (by rw [hcontent]; rfl), hheading, joinLines_singleton]
  · have hne : ¬ t.content.isEmpty = true := by simpa using hcontent
    rw [if_neg hcontent, if_neg hne, joinLines_cons_cons, joinLines_cons [] (splitOn_ne_nil _), joinLines_splitOn,
      String.toList_append, String.toList_append, hheading, List.append_assoc]
    rfl

theorem marks_below (t : Section) : marks t.below = textMarks t.content.toList := by
  rw [below]
  split
  · rename_i hcontent
    rw [hcontent]
    rfl
  · rw [marks_cons_of_blank _ rfl, ← textMarks_joinLines fun l hl => not_mem_of_mem_splitOn hl, joinLines_splitOn]

theorem Sound.trim_below (h : t.Sound) : trim (joinLines t.below) = t.content.toList := by
  rw [below]
  split
  · rename_i hcontent
    rw [hcontent]
    rfl
  · rw [trim_joinLines_cons_nil, joinLines_splitOn, h.trimmed.trim_eq]

theorem Sound.isLine (h : t.Sound) : ∀ l ∈ t.lines, IsLine l := by
  refine List.forall_mem_cons.mpr ⟨Page.isLine_heading h.title.trimmed h.title.line, ?_⟩
  intro l hl
  rw [below] at hl
  split at hl
  · cases hl
  · rcases List.mem_cons.mp hl with rfl | hl
    · decide
    · exact isLine_of_mem_splitOn h.noReturn hl

theorem Sound.getLast?_lines (h : t.Sound) : t.lines.getLast? ≠ some [] := by
  rw [lines, below]
  split
  · simp [Page.heading]
  · rename_i hcontent
    have hne : joinLines (t.content.toList.splitOn '\n') ≠ [] := by
      rw [joinLines_splitOn]
      simpa using hcontent
    have htrimmed := h.trimmed
    rw [← joinLines_splitOn t.content.toList] at htrimmed
    rw [List.getLast?_cons_of_ne_nil (List.cons_ne_nil _ _), List.getLast?_cons_of_ne_nil (splitOn_ne_nil _)]
    exact Manuscript.getLast?_ne_of_trimmed htrimmed hne

theorem Sound.headingLevel? (h : t.Sound) : headingLevel? (headingLine t.level t.title.toList) = some t.level :=
  Page.headingLevel?_heading h.title.trimmed h.shallow.1 h.shallow.2

theorem Sound.readSection (h : t.Sound) : readSection (trim (joinLines t.lines)) = .ok t := by
  have htitle := Page.title_heading (p := ⟨t.title.toList, []⟩) h.title.trimmed h.shallow.1
  rw [lines, readSection_joinLines t.below (Page.not_mem_heading h.title.line) h.headingLevel?, htitle, h.trim_below,
    String.ofList_toList, String.ofList_toList]

end Section

def writtenLines (ts : List Section) : List (List Char) := List.intercalate [[]] (ts.map Section.lines)

theorem lines_writtenLines {ts : List Section} (h : ∀ t ∈ ts, t.Sound) :
    lines (joinLines (writtenLines ts)) = writtenLines ts := by
  apply lines_joinLines
  · intro l hl
    rcases mem_intercalate hl with rfl | ⟨b, hb, hl⟩
    · decide
    · obtain ⟨t, ht, rfl⟩ := List.mem_map.mp hb
      exact (h t ht).isLine l hl
  · apply Manuscript.getLast?_intercalate
    intro b hb
    obtain ⟨t, ht, rfl⟩ := List.mem_map.mp hb
    exact ⟨List.cons_ne_nil _ _, (h t ht).getLast?_lines⟩

theorem cutAtHeadings_lines {t : Section} (h : t.Sound) (rest : List (List Char)) :
    cutAtHeadings .markdown (t.lines ++ rest) =
      ([], (headingLine t.level t.title.toList :: (cutAtHeadings .markdown (t.below ++ rest)).1) ::
        (cutAtHeadings .markdown (t.below ++ rest)).2) := by
  rw [Section.lines, List.cons_append, cutAtHeadings_cons, step_of_sign (head?_of_headingLevel? h.headingLevel?),
    h.headingLevel?]
  rfl

theorem sectionText?_lines {t : Section} (h : t.Sound) (rest : List (List Char)) :
    sectionText? (t.lines ++ rest) = some (trim (joinLines (t.lines ++ rest))) := by
  apply sectionText?_part
  rw [h.headingLevel?]
  rfl

theorem cutAtHeadings_writtenLines {ts : List Section} (h : ∀ t ∈ ts, t.Sound)
    (hchained : Chained .markdown (ts.map Section.below)) :
    ∃ groups, cutAtHeadings .markdown (writtenLines ts) = ([], groups) ∧
      groups.filterMap sectionText? = ts.map fun t => trim (joinLines t.lines) := by
  induction ts with
  | nil => exact ⟨[], rfl, rfl⟩
  | cons t ts ih =>
      obtain ⟨ht, hts⟩ := List.forall_mem_cons.mp h
      have hproper : ScanState.Proper .markdown := trivial
      obtain ⟨groups, hcut, hgroups⟩ := ih hts hchained.tail
      cases ts with
      | nil =>
          have hrests : cutAtHeadings .markdown t.below = (t.below, []) := hchained
          have hwritten := cutAtHeadings_lines ht []
          rw [List.append_nil, List.append_nil, hrests] at hwritten
          refine ⟨[t.lines], ?_, ?_⟩
          · rw [writtenLines, List.map_singleton, List.intercalate_singleton, hwritten]
            rfl
          · have htext := sectionText?_lines ht []
            rw [List.append_nil] at htext
            rw [List.filterMap_cons_some htext]
            rfl
      | cons u ts =>
          -- the blank line before the next section falls to this one, and goes when it is trimmed
          have hblank : cutAtHeadings .markdown ([] :: writtenLines (u :: ts)) = ([[]], groups) := by
            rw [cutAtHeadings_cons, step_blank hproper rfl, hcut]
            rfl
          have hwritten := cutAtHeadings_lines ht ([] :: writtenLines (u :: ts))
          rw [hchained.1, hblank] at hwritten
          refine ⟨(t.lines ++ [[]]) :: groups, ?_, ?_⟩
          · rw [writtenLines, List.map_cons, List.map_cons, List.intercalate_cons_cons, List.append_assoc]
            exact hwritten
          · rw [List.filterMap_cons_some (sectionText?_lines ht [[]]), hgroups, trim_joinLines_concat_nil]
            rfl

/-- Sections that leave nothing open, the last one apart, are read back from what is written of them. -/
theorem readSections_writtenLines {ts : List Section} (h : ∀ t ∈ ts, t.Sound)
    (hchained : Chained .markdown (ts.map fun t => textMarks t.content.toList)) :
    (splitSections (joinLines (writtenLines ts))).mapM readSection = .ok ts := by
  have hproper : ScanState.Proper .markdown := trivial
  have hbelow : Chained .markdown (ts.map Section.below) := by
    apply Chained.of_marks hproper
    rw [List.map_map]
    simpa [Function.comp_def, Section.marks_below] using hchained
  obtain ⟨groups, hcut, hgroups⟩ := cutAtHeadings_writtenLines h hbelow
  rw [splitSections, lines_writtenLines h, hcut]
  dsimp only
  rw [List.filterMap_cons_none rfl, hgroups, mapM_map_ok fun t ht => (h t ht).readSection, List.map_id']

theorem toList_writeFlat (ts : List Section) : (writeFlat ts).toList = joinLines (writtenLines (leveled ts)) := by
  cases ts with
  | nil => rfl
  | cons head rest =>
      have hblocks : ∀ b ∈ (leveled (head :: rest)).map Section.lines, b ≠ [] := by
        intro b hb
        obtain ⟨t, -, rfl⟩ := List.mem_map.mp hb
        exact List.cons_ne_nil _ _
      have hhead : (head.write "#").toList = joinLines (Section.lines { head with level := 1 }) :=
        Section.toList_write (t := { head with level := 1 }) rfl
      have hrest (t : Section) : (t.write "##").toList = joinLines (Section.lines { t with level := 2 }) :=
        Section.toList_write (t := { t with level := 2 }) rfl
      rw [writtenLines, joinLines_intercalate hblocks, writeFlat, String.toList_intercalate, leveled]
      simp [hhead, hrest, Function.comp_def]

theorem writeFlat_leveled (ts : List Section) : writeFlat (leveled ts) = writeFlat ts := by
  cases ts with
  | nil => rfl
  | cons head rest =>
      rw [leveled, writeFlat, writeFlat, List.map_map]
      rfl

section Returns

variable {s : List Char}

theorem return_not_mem_joinLines {ls : List (List Char)} (h : '\r' ∉ s) (hls : ∀ l ∈ ls, l ∈ lines s) :
    '\r' ∉ trim (joinLines ls) := by
  intro hmem
  rcases mem_intercalate (mem_trim hmem) with e | ⟨l, hl, hmem⟩
  · cases e
  · exact h (mem_of_mem_lines (hls l hl) hmem)

theorem return_not_mem_splitSections (h : '\r' ∉ s) : ∀ u ∈ splitSections s, '\r' ∉ u := by
  intro u hu
  obtain ⟨d, hsplit⟩ := splitSections_division s
  rw [hsplit, List.mem_append] at hu
  rcases hu with hu | hu
  · have hopening : '\r' ∉ opening s :=
      return_not_mem_joinLines h fun l hl => (beforeHeadings_isPrefix _ _).subset hl
    split at hu
    · cases hu
    · rw [List.mem_singleton.mp hu, List.mem_append, openingTitle, not_or]
      refine ⟨?_, hopening⟩
      split <;> decide
  · obtain ⟨q, hq, rfl⟩ := List.mem_map.mp hu
    apply return_not_mem_joinLines h
    intro l hl
    rw [← d.all]
    exact List.mem_append_right _ (List.mem_flatMap.mpr ⟨q, hq, hl⟩)

theorem content_of_readSection {u : List Char} {t : Section} (h : readSection u = .ok t) :
    ∃ content : List Char, content ⊆ u ∧ t.content.toList = trim content := by
  unfold readSection at h
  dsimp only at h
  split at h
  · cases h
  · cases h
    refine ⟨_, ?_, String.toList_ofList⟩
    cases hsplit : splitOnce (· = '\n') (trim u) with
    | none => exact List.nil_subset u
    | some parts => exact fun c hc => mem_trim ((splitOnce_subset hsplit).2.1 hc)

theorem sound_of_readSection {u : List Char} {t : Section} {level : Nat} (h : readSection u = .ok t) (hreturn : '\r' ∉ u)
    (hlevel : 0 < level ∧ level ≤ deepestHeading) : Section.Sound { t with level } := by
  obtain ⟨content, hsub, hcontent⟩ := content_of_readSection h
  have htitle : IsTitle t.title := isTitle_of_readSection h
  refine ⟨htitle, hlevel, ?_, ?_⟩
  · rw [hcontent]
    exact trim_trimmed content
  · rw [hcontent]
    exact fun hmem => hreturn (hsub (mem_trim hmem))

theorem readSections_writeFlat {ts : List Section} (hts : (splitSections s).mapM readSection = .ok ts) (h : '\r' ∉ s) :
    (splitSections (writeFlat ts).toList).mapM readSection = .ok (leveled ts) := by
  rw [toList_writeFlat]
  apply readSections_writtenLines
  · intro u hu
    obtain ⟨t, ht, level, hlevel, rfl⟩ := mem_leveled hu
    obtain ⟨text, htext, hread⟩ := mem_of_mapM_ok hts t ht
    exact sound_of_readSection hread (return_not_mem_splitSections h text htext) hlevel
  · rw [map_leveled fun _ _ => rfl]
    exact chained_of_readSections hts

end Returns

/-- Flattening and taking apart agree: a flat text is taken apart into a head of level one and sections of level two,
with the titles of the sections that it was flattened from. Where there is no carriage return they have the same
contents too, and a flat text is not changed when it is flattened again. -/
theorem sectionize_of_flatten {s : List Char} {text : String} (h : flatten s = .ok text) (hne : text ≠ "") :
    ∃ ts sections, (splitSections s).mapM readSection = .ok ts ∧ sectionize text.toList = .ok sections ∧
      sections.head.level = 1 ∧ (∀ t ∈ sections.rest, t.level = 2) ∧
      (sections.head :: sections.rest).map Section.title = ts.map Section.title ∧
      ('\r' ∉ s → (sections.head :: sections.rest).map Section.content = ts.map Section.content ∧
        flatten text.toList = .ok text) := by
  obtain ⟨ts, us, hts, hus, htitles, hreads⟩ := readSections_flatten h
  have htext : writeFlat ts = text := by
    rw [flatten, hts] at h
    exact Except.ok.inj h
  obtain ⟨hlevels, hsame⟩ := headings_of_reads htitles hreads
  have hfilled : ts ≠ [] := by
    rintro rfl
    exact hne htext.symm
  obtain ⟨head, rest, rfl, hsections, hhead, hrest⟩ := sectionize_of_leveled hus hlevels hfilled
  refine ⟨ts, ⟨head, rest⟩, hts, hsections, hhead, hrest, hsame.symm, fun hreturn => ?_⟩
  have hflat := readSections_writeFlat hts hreturn
  rw [htext] at hflat
  constructor
  · rw [← Except.ok.inj (hflat.symm.trans hus), map_leveled fun _ _ => rfl]
  · rw [flatten, hflat, ← htext, ← writeFlat_leveled ts]
    rfl

def roughText : String := "intro\n### A\n```\n# x\n```\n#\n<!-- open\n# B"

def flatText : String := "# Untitled\n\nintro\n\n## A\n\n```\n# x\n```\n\n## \n\n<!-- open\n# B"

theorem sectionize_of_flatten_roughText :
    flatten roughText.toList = .ok flatText ∧ flatText ≠ "" ∧ '\r' ∉ roughText.toList ∧
      flatten flatText.toList = .ok flatText ∧
      ∃ sections, sectionize flatText.toList = .ok sections ∧ sections.head.level = 1 ∧
        ∀ t ∈ sections.rest, t.level = 2 := by
  have hflat : flatten roughText.toList = .ok flatText := by decide
  have hne : flatText ≠ "" := by decide
  have hreturn : '\r' ∉ roughText.toList := by decide
  obtain ⟨ts, sections, -, hsections, hhead, hrest, -, hsame⟩ := sectionize_of_flatten hflat hne
  exact ⟨hflat, hne, hreturn, (hsame hreturn).2, sections, hsections, hhead, hrest⟩

end BookCompiler.Markdown
