import BookCompiler.Proofs.Markdown.Prompted

namespace BookCompiler.Markdown

open Text

def flatPrompt (s : List Char) : List Char := trim (joinLines (lines (trim s)).dropLast)

def resultLine (s : List Char) : List Char := trim ((lines (trim s)).getLast?.getD [])

section Wrap

theorem removeComments_of_outsideLines {s : List Char} (h : ∀ line ∈ outsideLines s, contains commentStart line = false) :
    removeComments s = joinLines (lines s) := by
  have hplain : ∀ q ∈ classifiedLines s, q.1 = .outside → contains commentStart q.2 = false := by
    rintro ⟨c, line⟩ hq hc
    exact h line (List.mem_filterMap.mpr ⟨_, hq, if_pos hc⟩)
  have hkept := uncommentLines_plain [] hplain
  rw [List.append_nil] at hkept
  rw [removeComments, hkept, classifiedLines, map_snd_classifyFrom]
  exact congrArg joinLines (List.append_nil _)

theorem isReturnLine_dropReturn (l : List Char) : isReturnLine (dropReturn l) = isReturnLine l := by
  rw [isReturnLine, isReturnLine, trim_dropReturn]

theorem headingLevel?_dropReturn (l : List Char) : headingLevel? (dropReturn l) = headingLevel? l := by
  rw [← headingLevel?_trim, trim_dropReturn, headingLevel?_trim]

theorem outsideLines_joinLines_lines {t : List Char} (h : Trimmed t) :
    outsideLines (joinLines (lines t)) = (outsideLines t).map dropReturn := by
  rw [outsideLines, outsideLines, classifiedLines, lines_joinLines_lines h, classifyFrom_dropReturn, classifiedLines,
    List.filterMap_map, List.map_filterMap]
  congr 1
  funext q
  obtain ⟨c, line⟩ := q
  by_cases hc : c = .outside <;> simp [hc]

theorem isFlat_joinLines_lines (s : List Char) : isFlat (joinLines (lines s)) = isFlat s := by
  have htrimmed := trim_trimmed s
  have hhead : (joinLines (lines (trim s))).head? = (trim s).head? := by
    cases htext : trim s with
    | nil => rfl
    | cons c t =>
        obtain ⟨u, hu⟩ := exists_joinLines_lines t (htrimmed.1 c (by rw [htext]; rfl))
        rw [hu]
        rfl
  have hheadings : (outsideLines (joinLines (lines (trim s)))).any (fun line => (headingLevel? line).isSome) =
      (outsideLines (trim s)).any fun line => (headingLevel? line).isSome := by
    rw [outsideLines_joinLines_lines htrimmed, List.any_map]
    simp only [Function.comp_def, headingLevel?_dropReturn]
  have hlast : (lines (joinLines (lines (trim s)))).getLast?.any isReturnLine =
      (lines (trim s)).getLast?.any isReturnLine := by
    rw [lines_joinLines_lines htrimmed, List.getLast?_map]
    cases (lines (trim s)).getLast? with
    | none => rfl
    | some l => exact isReturnLine_dropReturn l
  rw [isFlat, isFlat, trim_joinLines_lines, hhead, hheadings, hlast]

theorem wrapFlat_joinLines_lines {s : List Char} (h : isFlat s = true) :
    wrapFlat (joinLines (lines s)) =
      prompted (quotePrompt (joinLines (lines (flatPrompt s))) ++ ['\n', '\n'] ++ resultLine s) := by
  have hprompt : trim (joinLines ((lines (trim s)).map dropReturn).dropLast) = joinLines (lines (flatPrompt s)) := by
    rw [← List.map_dropLast, trim_joinLines_dropReturn, trim_joinLines_lines]
    · rfl
    · exact fun line hline => not_mem_of_mem_lines (List.dropLast_subset _ hline)
  have hresult : trim (((lines (trim s)).map dropReturn).getLast?.getD []) = resultLine s := by
    rw [List.getLast?_map, resultLine]
    cases (lines (trim s)).getLast? with
    | none => rfl
    | some l => exact trim_dropReturn l
  have hhead : "# ".toList ++ untitled ++ "\n\n## Prompt\n\n".toList = "# Untitled\n\n## Prompt\n\n".toList := rfl
  have hwrap : wrapFlat (joinLines (lines s)) = "# ".toList ++ untitled ++ "\n\n## Prompt\n\n".toList ++
      quotePrompt (trim (joinLines (lines (trim (joinLines (lines s)))).dropLast)) ++ ['\n', '\n'] ++
      trim ((lines (trim (joinLines (lines s)))).getLast?.getD []) := if_pos (by rwa [isFlat_joinLines_lines])
  rw [hwrap, trim_joinLines_lines, lines_joinLines_lines (trim_trimmed s), hprompt, hresult, hhead, List.append_assoc,
    List.append_assoc, ← List.append_assoc (quotePrompt _)]
  rfl

variable {p r : List Char}

theorem quotePrompt_of_not_mem (h : '\n' ∉ p) (hne : p ≠ []) :
    quotePrompt p ++ ['\n', '\n'] ++ r = joinLines (quotedPrompt p r) := by
  have hlines : (lines p).length ≤ 1 := by rw [lines_of_not_mem h hne, List.length_singleton]
  rw [quotePrompt, if_pos hlines, quotedPrompt, joinLines_cons_cons, joinLines_cons_cons, joinLines_singleton,
    List.append_assoc]
  rfl

theorem quotePrompt_joinLines {ls : List (List Char)} (h : 2 ≤ (lines (joinLines ls)).length) :
    quotePrompt (joinLines ls) ++ ['\n', '\n'] ++ r = joinLines (fencedPrompt ls r) := by
  have hne : ls ≠ [] := by
    rintro rfl
    cases h
  rw [quotePrompt, if_neg (by omega), fencedPrompt, joinLines_cons _ (by simp), joinLines_append hne (by simp),
    joinLines_cons_cons, joinLines_cons_cons, joinLines_singleton]
  simp only [List.append_assoc]
  rfl

theorem two_le_length_lines (hp : Trimmed p) (h : '\n' ∈ p) : 2 ≤ (lines p).length := by
  obtain ⟨a, b, rfl, ha⟩ := List.eq_append_cons_of_mem h
  cases b with
  | nil => exact absurd (hp.2 '\n' List.getLast?_concat) (by decide)
  | cons c b =>
      have hbelow := List.length_pos_of_ne_nil (lines_cons_ne_nil c b)
      rw [lines_append_line _ ha, List.length_cons]
      omega

end Wrap

section Read

def promptBook (content name : List Char) (source : String) : Book where
  head := ⟨"Untitled", none, []⟩
  sections := [⟨"Prompt", "prompt", none, String.ofList content, none, some (String.ofList name), []⟩]
  source := source

theorem exists_result {s : List Char} (h : isFlat s = true) :
    ∃ name, (lines (trim s)).getLast?.bind returnName? = some name ∧ IsResult name (resultLine s) ∧
      '\n' ∉ resultLine s := by
  have hlast : (lines (trim s)).getLast?.any isReturnLine = true := by
    rw [isFlat, Bool.and_eq_true] at h
    exact h.2
  rw [resultLine]
  cases hline : (lines (trim s)).getLast? with
  | none =>
      rw [hline] at hlast
      cases hlast
  | some line =>
      rw [hline] at hlast
      obtain ⟨name, hname⟩ := exists_isResult hlast
      refine ⟨name, ?_, hname, ?_⟩
      · have hsame : returnName? (trim line) = returnName? line := by
          rw [returnName?, returnName?, (trim_trimmed line).trim_eq]
        exact hsame.symm.trans hname.returnName?
      · exact fun hmem => not_mem_of_mem_lines (List.mem_of_getLast? hline) (mem_trim hmem)

def Inside (ls : List (List Char)) : Prop := ∀ line ∈ ls, '\n' ∉ line ∧ Fence.ticks.isClosedBy line = false

theorem Inside.dropReturn {ls : List (List Char)} (h : Inside ls) : Inside (ls.map dropReturn) := by
  rw [Inside, List.forall_mem_map]
  intro line hmem
  exact ⟨not_mem_dropReturn (h line hmem).1, (isClosedBy_congr (trim_dropReturn line)).trans (h line hmem).2⟩

/-- What is in a code block is read four times before it is the content of a section. -/
theorem read_fencedPrompt {source : String} {name r : List Char} {ls : List (List Char)} (hr : IsResult name r)
    (hline : '\n' ∉ r) (hls : Inside ls)
    (hwrap : wrapFlat (removeComments source.toList) = prompted (joinLines (fencedPrompt ls r))) :
    Book.read source = .ok (promptBook (trim (joinLines ((List.map dropReturn)^[4] ls))) name source) := by
  have hinside (k : Nat) : Inside ((List.map dropReturn)^[k] ls) := by
    induction k with
    | zero => exact hls
    | succ k ih =>
        rw [Function.iterate_succ_apply']
        exact ih.dropReturn
  have hclosed (k : Nat) : ∀ line ∈ (List.map dropReturn)^[k] ls, Fence.ticks.isClosedBy line = false :=
    fun line hmem => (hinside k line hmem).2
  have hlines (k : Nat) : lines (joinLines (fencedPrompt ((List.map dropReturn)^[k] ls) r)) =
      fencedPrompt ((List.map dropReturn)^[k + 1] ls) r := by
    rw [lines_fencedPrompt hr hline fun line hmem => (hinside k line hmem).1, Function.iterate_succ_apply']
  -- first for parameters in backticks, then for headings, for sections, and for the block itself
  have hfirst : lines (joinLines (fencedPrompt ls r)) = fencedPrompt ((List.map dropReturn)^[1] ls) r := hlines 0
  have hrests := rests_fencedPrompt hr (hclosed 2)
  rw [← hlines 1] at hrests
  rw [read_prompted (trimmed_fencedPrompt hr _) hrests hwrap (fun hnil => List.cons_ne_nil _ _ (hfirst.symm.trans hnil))
    (unwrapParameters_fencedPrompt hr (hclosed 1) hfirst) (fun hnil => List.cons_ne_nil _ _ ((hlines 1).symm.trans hnil)),
    hlines 1, hlines 2, sectionOf_fencedPrompt hr (hclosed 4) (hlines 3)]
  rfl

variable {source : String} (hcomment : ∀ line ∈ outsideLines source.toList, contains commentStart line = false)
  (hflat : isFlat source.toList = true)

include hcomment hflat

theorem wrapFlat_of_not_mem (hne : flatPrompt source.toList ≠ []) (hfeed : '\n' ∉ flatPrompt source.toList) :
    wrapFlat (removeComments source.toList) =
      prompted (joinLines (quotedPrompt (flatPrompt source.toList) (resultLine source.toList))) := by
  rw [removeComments_of_outsideLines hcomment, wrapFlat_joinLines_lines hflat, lines_of_not_mem hfeed hne,
    joinLines_singleton, quotePrompt_of_not_mem hfeed hne]

theorem wrapFlat_of_mem (hfeed : '\n' ∈ flatPrompt source.toList) :
    wrapFlat (removeComments source.toList) =
      prompted (joinLines (fencedPrompt (lines (flatPrompt source.toList)) (resultLine source.toList))) := by
  have htrimmed : Trimmed (flatPrompt source.toList) := trim_trimmed _
  have hlength : 2 ≤ (lines (joinLines (lines (flatPrompt source.toList)))).length := by
    rw [lines_joinLines_lines htrimmed, List.length_map]
    exact two_le_length_lines htrimmed hfeed
  rw [removeComments_of_outsideLines hcomment, wrapFlat_joinLines_lines hflat, quotePrompt_joinLines hlength]

variable {name : List Char} (hr : IsResult name (resultLine source.toList)) (hline : '\n' ∉ resultLine source.toList)

include hr hline

theorem read_quoted (hne : flatPrompt source.toList ≠ []) (hfeed : '\n' ∉ flatPrompt source.toList) :
    Book.read source = .ok (promptBook (unwrapLine (flatPrompt source.toList)) name source) := by
  have htrimmed : Trimmed (flatPrompt source.toList) := trim_trimmed _
  have hq := trimmed_unwrapLine htrimmed
  have hqne : unwrapLine (flatPrompt source.toList) ≠ [] := fun hnil => hne (unwrapLine_eq_nil_iff.mp hnil)
  have hlines := lines_quotedPrompt hr hline htrimmed hne hfeed
  have hqlines := lines_quotedPrompt hr hline hq hqne (not_mem_unwrapLine hfeed)
  have hrests := rests_quotedPrompt (q := unwrapLine (flatPrompt source.toList)) hr
  rw [← hqlines] at hrests
  rw [read_prompted (trimmed_quotedPrompt hr _) hrests (wrapFlat_of_not_mem hcomment hflat hne hfeed)
    (fun hnil => List.cons_ne_nil _ _ (hlines.symm.trans hnil)) (unwrapParameters_quotedPrompt hr hlines)
    (fun hnil => List.cons_ne_nil _ _ (hqlines.symm.trans hnil)), hqlines, hqlines,
    sectionOf_quotedPrompt hr hq hqne hqlines]
  rfl

theorem read_fenced (hfeed : '\n' ∈ flatPrompt source.toList)
    (hclosed : ∀ line ∈ lines (flatPrompt source.toList), Fence.ticks.isClosedBy line = false) :
    Book.read source =
      .ok (promptBook (trim (joinLines ((List.map dropReturn)^[4] (lines (flatPrompt source.toList))))) name source) :=
  read_fencedPrompt hr hline (fun line hmem => ⟨not_mem_of_mem_lines hmem, hclosed line hmem⟩)
    (wrapFlat_of_mem hcomment hflat hfeed)

end Read

section Refused

theorem iterate_dropReturn_sublist (k : Nat) (ls : List (List Char)) :
    (joinLines ((List.map dropReturn)^[k] ls)).Sublist (joinLines ls) := by
  induction k with
  | zero => exact List.Sublist.refl _
  | succ k ih =>
      rw [Function.iterate_succ_apply']
      exact (joinLines_dropReturn_sublist _).trans ih

theorem trim_iterate_dropReturn_iff {p : List Char} (h : Trimmed p) (k : Nat) :
    trim (joinLines ((List.map dropReturn)^[k] (lines p))) = p ↔ joinLines (lines p) = p := by
  constructor
  · intro hsame
    have hless : p.Sublist (joinLines (lines p)) := by
      have htrim := (trim_isInfix (joinLines ((List.map dropReturn)^[k] (lines p)))).sublist
      rw [hsame] at htrim
      exact htrim.trans (iterate_dropReturn_sublist k (lines p))
    exact (joinLines_lines_sublist p).antisymm hless
  · intro hsame
    have hfixed : (lines p).map dropReturn = lines p := by rw [← lines_joinLines_lines h, hsame]
    rw [Function.iterate_fixed hfixed, hsame, h.trim_eq]

theorem exists_of_read {source : String} {book : Book} {t : BookSection} (h : Book.read source = .ok book)
    (ht : book.sections = [t]) :
    ∃ text head x, Book.prepare source = .ok text ∧ sectionize text.toList = .ok ⟨head, [x]⟩ ∧ Book.sectionOf x = .ok t := by
  obtain ⟨text, hprepare, h⟩ := bind_ok h
  obtain ⟨⟨head, rest⟩, hsections, h⟩ := bind_ok h
  obtain ⟨ts, hrest, h⟩ := bind_ok h
  cases h
  obtain rfl : ts = [t] := ht
  obtain ⟨x, xs, hx, hnil, rfl⟩ := List.forall₂_cons_right_iff.mp (forall₂_of_mapM hrest)
  cases hnil
  exact ⟨text, head, x, hprepare, hsections, hx⟩

theorem codeBlocks_of_sectionOf {x : Section} {t : BookSection} (h : Book.sectionOf x = .ok t) :
    (codeBlocks x.content.toList).length ≤ 1 := by
  have hcontent : ∃ q, (Body.read x.content.toList).content = .ok q := by
    cases hread : (Body.read x.content.toList).content with
    | error e =>
        rw [Book.sectionOf, hread] at h
        cases h
    | ok q => exact ⟨q, rfl⟩
  obtain ⟨q, hq⟩ := hcontent
  change (Body.read x.content.toList).codeBlocks.length ≤ 1
  unfold Body.content at hq
  split at hq
  · rename_i hblocks _
    rw [hblocks]
    exact Nat.zero_le 1
  · rename_i hblocks _
    rw [hblocks]
    exact Nat.zero_le 1
  · rename_i hblocks
    rw [hblocks]
    exact Nat.le_refl 1
  · cases hq

theorem textMarks_prompted (b : List Char) :
    textMarks (prompted b) = "# Untitled".toList :: "## Prompt".toList :: textMarks b := by
  have hhead : marks promptHead = ["# Untitled".toList, "## Prompt".toList] := by decide
  rw [textMarks, lines_prompted, marks_append, hhead]
  rfl

def promptSheets (above : List (List Char)) (sheets : List (List Char × List (List Char))) :
    List (List Char × List (List Char)) := ("# Untitled".toList, []) :: ("## Prompt".toList, above) :: sheets

theorem readSections_textMarks (b : List Char) :
    ∃ above sheets ts, cutAtHeadings .markdown (textMarks b) = (above, sheets.map fun q => q.1 :: q.2) ∧
      (splitSections (prompted b)).mapM readSection = .ok ts ∧
      List.Forall₂ (fun q t => t.Reads q.1 q.2) (promptSheets above sheets) ts := by
  obtain ⟨before, groups, hsplit, hbefore, hgroups, hcut⟩ := splitSections_cut (prompted b)
  obtain ⟨sheets, hsheets, hlevels, -⟩ := cutAtHeadings_chained .markdown (textMarks b)
  have hheads : cutAtHeadings .markdown ("# Untitled".toList :: "## Prompt".toList :: textMarks b) =
      ([], ["# Untitled".toList] :: ("## Prompt".toList :: (cutAtHeadings .markdown (textMarks b)).1) ::
        (cutAtHeadings .markdown (textMarks b)).2) := rfl
  rw [textMarks_prompted, hheads, hsheets] at hcut
  obtain ⟨hblank, hmarks⟩ := Prod.mk.inj hcut
  have hall : ∀ q ∈ promptSheets (cutAtHeadings .markdown (textMarks b)).1 sheets, (headingLevel? q.1).isSome = true := by
    simp only [promptSheets, List.forall_mem_cons]
    exact ⟨by decide, by decide, hlevels⟩
  have hsame : groups.map marks =
      (promptSheets (cutAtHeadings .markdown (textMarks b)).1 sheets).map fun q => q.1 :: q.2 := hmarks.symm
  obtain ⟨ts, hts, hreads⟩ := readGroups hgroups hsame hall
  refine ⟨_, sheets, ts, Prod.ext rfl hsheets, ?_, hreads⟩
  rw [hsplit, sectionText?_of_blank hbefore hblank.symm]
  exact hts

theorem textMarks_of_sectionize {b : List Char} {text : String} {head t : Section}
    (hflat : flatten (prompted b) = .ok text) (hsections : sectionize text.toList = .ok ⟨head, [t]⟩) :
    textMarks t.content.toList = textMarks b := by
  obtain ⟨above, sheets, ts, hcut, hread, hsheet⟩ := readSections_textMarks b
  obtain ⟨ts', us, hts, hus, htitles, hreads⟩ := readSections_flatten hflat
  rw [hread] at hts
  cases hts
  obtain ⟨title, ts, -, hbelow, rfl⟩ := List.forall₂_cons_left_iff.mp hsheet
  obtain ⟨u, ts, hprompt, hrest, rfl⟩ := List.forall₂_cons_left_iff.mp hbelow
  obtain ⟨head', rest, rfl, hsame, -⟩ :=
    sectionize_of_leveled hus (headings_of_reads htitles hreads).1 (List.cons_ne_nil _ _)
  rw [hsections] at hsame
  cases hsame
  rw [flatSheets, List.map_cons, List.forall₂_cons, List.forall₂_cons] at hreads
  obtain ⟨-, hlast, hnone⟩ := hreads
  obtain rfl : ts = [] := by simpa using hnone
  cases hrest
  have hall := cutAtHeadings_flatten .markdown (textMarks b)
  rw [hcut] at hall
  calc textMarks t.content.toList
      = textMarks u.content.toList := hlast.content
    _ = above := hprompt.content
    _ = textMarks b := (List.append_nil above).symm.trans hall

theorem length_codeBlocks (s : List Char) : (codeBlocks s).length = openings none (textMarks s) := by
  rw [codeBlocks, length_codeBlocksIn, textMarks, openings_marks (by simp)]
  rfl

theorem openings_unwrapParameters (s : List Char) :
    openings none (textMarks (unwrapParameters s)) = openings none (lines s) := by
  rw [textMarks_unwrapParameters, openings_marks (by simp), openings, classifyFrom_unwrap, List.countP_map]
  rfl

/-- A prompt that closes its code block makes a second one, which no section may have. -/
theorem not_single_of_closed {source : String} {name r : List Char} {ls : List (List Char)} (hr : IsResult name r)
    (hline : '\n' ∉ r) (hls : ∀ line ∈ ls, '\n' ∉ line) (hclosed : ∃ line ∈ ls, Fence.ticks.isClosedBy line = true)
    (hwrap : wrapFlat (removeComments source.toList) = prompted (joinLines (fencedPrompt ls r)))
    {book : Book} (h : Book.read source = .ok book) (t : BookSection) : book.sections ≠ [t] := by
  intro ht
  obtain ⟨text, head, x, hprepare, hsections, hx⟩ := exists_of_read h ht
  have hlines := lines_fencedPrompt hr hline hls
  have hne : lines (joinLines (fencedPrompt ls r)) ≠ [] := by
    rw [hlines]
    exact List.cons_ne_nil _ _
  rw [Book.prepare, hwrap, unwrapParameters_prompted hne] at hprepare
  have htwo : 2 ≤ (codeBlocks x.content.toList).length := by
    rw [length_codeBlocks, textMarks_of_sectionize hprepare hsections, openings_unwrapParameters, hlines]
    apply two_le_openings
    obtain ⟨line, hmem, hclosed⟩ := hclosed
    refine ⟨dropReturn line, List.mem_map_of_mem hmem, ?_⟩
    rw [isClosedBy_congr (trim_dropReturn line), hclosed]
  have hone := codeBlocks_of_sectionOf hx
  omega

end Refused

/-- A prompt that can be put into a code block and read from it again: no line closes the block, and the lines end with
line feeds only. -/
def Enclosable (p : List Char) : Prop :=
  (∀ line ∈ lines p, Fence.ticks.isClosedBy line = false) ∧ joinLines (lines p) = p

instance (p : List Char) : Decidable (Enclosable p) := by
  unfold Enclosable
  infer_instance

/-- A flat text without comments is read as a book with a single section, which has its prompt for content and its last
line for result. A prompt of one line loses the backticks around its parameters. A longer one stays as it is if it can be
put into a code block; if it cannot, no book with a single section has it for content. -/
theorem read_flatPrompt {source : String}
    (hcomment : ∀ line ∈ outsideLines source.toList, contains commentStart line = false)
    (hflat : isFlat source.toList = true) (hprompt : flatPrompt source.toList ≠ []) :
    ∃ name, (lines (trim source.toList)).getLast?.bind returnName? = some name ∧
      ('\n' ∉ flatPrompt source.toList →
        Book.read source = .ok (promptBook (unwrapLine (flatPrompt source.toList)) name source)) ∧
      ('\n' ∈ flatPrompt source.toList →
        (Enclosable (flatPrompt source.toList) →
          Book.read source = .ok (promptBook (flatPrompt source.toList) name source)) ∧
        (¬ Enclosable (flatPrompt source.toList) → ∀ book, Book.read source = .ok book →
          ∀ t, book.sections = [t] → t.content ≠ String.ofList (flatPrompt source.toList))) := by
  obtain ⟨name, hname, hr, hline⟩ := exists_result hflat
  have htrimmed : Trimmed (flatPrompt source.toList) := trim_trimmed _
  refine ⟨name, hname, read_quoted hcomment hflat hr hline hprompt, fun hfeed => ⟨fun hfits => ?_, ?_⟩⟩
  · have hread := read_fenced hcomment hflat hr hline hfeed hfits.1
    rwa [(trim_iterate_dropReturn_iff htrimmed 4).mpr hfits.2] at hread
  · intro hfits book hread t ht hcontent
    by_cases hclosed : ∀ line ∈ lines (flatPrompt source.toList), Fence.ticks.isClosedBy line = false
    · rw [read_fenced hcomment hflat hr hline hfeed hclosed] at hread
      cases hread
      obtain ⟨rfl, -⟩ := List.cons.inj ht
      exact hfits ⟨hclosed, (trim_iterate_dropReturn_iff htrimmed 4).mp (String.ofList_injective hcontent)⟩
    · push Not at hclosed
      simp only [ne_eq, Bool.not_eq_false] at hclosed
      exact not_single_of_closed hr hline (fun _ => not_mem_of_mem_lines) hclosed
        (wrapFlat_of_mem hcomment hflat hfeed) hread t ht

def crowdedPrompt : String := "~~~\n# h\n~~~\n- JOKER \x7bj\x7d\n> `\x7bq\x7d`\n-> \x7bx\x7d\n\n-> \x7by\x7d\n"

theorem read_flatPrompt_crowded : Book.read crowdedPrompt = .ok (promptBook
    "~~~\n# h\n~~~\n- JOKER \x7bj\x7d\n> `\x7bq\x7d`\n-> \x7bx\x7d".toList ['y'] crowdedPrompt) := by
  have hcomment : ∀ line ∈ outsideLines crowdedPrompt.toList, contains commentStart line = false := by decide
  have hprompt : flatPrompt crowdedPrompt.toList =
      "~~~\n# h\n~~~\n- JOKER \x7bj\x7d\n> `\x7bq\x7d`\n-> \x7bx\x7d".toList := by decide
  obtain ⟨name, hname, -, hmany⟩ := read_flatPrompt hcomment (by decide) (by decide)
  obtain rfl : name = ['y'] := Option.some.inj (hname.symm.trans (by decide))
  rw [hprompt] at hmany
  exact (hmany (by decide)).1 (by decide)

def fencedText : String := "Explain:\n```\nx = 1\n```\n-> \x7by\x7d"

theorem fencedText_refused : (∀ line ∈ outsideLines fencedText.toList, contains commentStart line = false) ∧
    isFlat fencedText.toList = true ∧ flatPrompt fencedText.toList = "Explain:\n```\nx = 1\n```".toList ∧
    Book.read fencedText = .error (.invalidSection "Prompt" (.invalidValue (.manyCodeBlocks 2))) := by
  refine ⟨by decide, by decide, by decide, by decide +kernel⟩

end BookCompiler.Markdown
