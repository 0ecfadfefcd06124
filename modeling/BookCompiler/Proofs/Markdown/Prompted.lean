import BookCompiler.Book
import BookCompiler.Proofs.Markdown.Commented
import BookCompiler.Proofs.Markdown.Unwrapped
import BookCompiler.Proofs.Text.Returns

namespace BookCompiler.Markdown

open Text

section Classes

theorem isClosedBy_congr {f : Fence} {l m : List Char} (h : trim l = trim m) : f.isClosedBy l = f.isClosedBy m := by
  rw [Fence.isClosedBy, Fence.isClosedBy, h]

theorem classify_congr {l m : List Char} (fence : Option Fence) (h : trim l = trim m) :
    classify fence l = classify fence m := by
  cases fence with
  | none => rw [classify, classify, ← open?_trim l, ← open?_trim m, h]
  | some f => rw [classify, classify, isClosedBy_congr h]

theorem classifyFrom_dropReturn (fence : Option Fence) (ls : List (List Char)) :
    classifyFrom fence (ls.map dropReturn) = (classifyFrom fence ls).map fun q => (q.1, dropReturn q.2) := by
  induction ls generalizing fence with
  | nil => rfl
  | cons l ls ih =>
      rw [List.map_cons, classifyFrom, classifyFrom, classify_congr fence (trim_dropReturn l), ih]
      rfl

def LineClass.isOpening : LineClass → Bool
  | opens _ => true
  | _ => false

/-- How many code blocks some lines open. -/
def openings (fence : Option Fence) (ls : List (List Char)) : Nat :=
  (classifyFrom fence ls).countP fun q => q.1.isOpening

theorem openings_cons (fence : Option Fence) (l : List Char) (ls : List (List Char)) :
    openings fence (l :: ls) =
      openings ((classify fence l).fenceAfter fence) ls + if (classify fence l).isOpening then 1 else 0 := by
  rw [openings, classifyFrom, List.countP_cons]
  rfl

theorem openings_tickChars (ls : List (List Char)) : openings none (tickChars :: ls) = openings (some .ticks) ls + 1 := by
  rw [openings_cons]
  rfl

theorem openings_append (fence : Option Fence) (ls ms : List (List Char)) :
    openings fence (ls ++ ms) = openings fence ls + openings (fenceAfter fence ls) ms := by
  rw [openings, classifyFrom_append, List.countP_append]
  rfl

theorem length_codeBlocksIn (xs : List (LineClass × List Char)) :
    (codeBlocksIn xs).length = xs.countP fun q => q.1.isOpening := by
  induction xs with
  | nil => rfl
  | cons x xs ih =>
      obtain ⟨c, line⟩ := x
      cases c with
      | opens f => rw [codeBlocksIn, List.length_cons, ih, List.countP_cons_of_pos rfl]
      | closes | inside | outside => simpa [codeBlocksIn, LineClass.isOpening] using ih

theorem openings_marks {fence : Option Fence} (hfence : ∀ f ∈ fence, f.isClosedBy [] = false) (ls : List (List Char)) :
    openings fence (marks ls) = openings fence ls := by
  induction ls generalizing fence with
  | nil => rfl
  | cons l ls ih =>
      by_cases hl : trim l = []
      · have hclass : (classify fence l).fenceAfter fence = fence ∧ (classify fence l).isOpening = false := by
          rw [classify_congr fence (hl.trans rfl : trim l = trim [])]
          cases fence with
          | none => exact ⟨rfl, rfl⟩
          | some f => simp [classify, hfence f rfl, LineClass.fenceAfter, LineClass.isOpening]
        rw [marks_cons_of_blank ls hl, openings_cons, hclass.1, hclass.2, ih hfence]
        rfl
      · have hnext : ∀ f ∈ (classify fence l).fenceAfter fence, f.isClosedBy [] = false := by
          cases fence with
          | none =>
              cases hopen : Fence.open? l with
              | none => simp [classify, hopen, LineClass.fenceAfter]
              | some f => simpa [classify, hopen, LineClass.fenceAfter] using isClosedBy_nil hopen
          | some f =>
              cases hclosed : f.isClosedBy l with
              | true => simp [classify, hclosed, LineClass.fenceAfter]
              | false => simpa [classify, hclosed, LineClass.fenceAfter] using hfence
        rw [marks_cons_of_ne_nil ls hl, openings_cons, openings_cons, classify_congr fence (trim_trimmed l).trim_eq,
          ih hnext]

theorem one_le_openings (ls rest : List (List Char)) : 1 ≤ openings none (ls ++ tickChars :: rest) := by
  rw [openings_append]
  cases hopen : fenceAfter none ls with
  | none =>
      rw [openings_tickChars]
      omega
  | some f =>
      obtain ⟨pre, o, b, rfl, hpre, ho, -⟩ := exists_opener hopen
      have hopens : (classify none o).isOpening = true := by simp [classify, ho, LineClass.isOpening]
      rw [openings_append, hpre, openings_cons, hopens]
      simp only [↓reduceIte]
      omega

/-- Where a line closes a block too early, the fence at its end opens another one. -/
theorem two_le_openings {ls : List (List Char)} (rest : List (List Char))
    (h : ∃ line ∈ ls, Fence.ticks.isClosedBy line = true) :
    2 ≤ openings none (tickChars :: (ls ++ tickChars :: rest)) := by
  have hsecond : 1 ≤ openings (some .ticks) (ls ++ tickChars :: rest) := by
    induction ls with
    | nil => simp at h
    | cons line ls ih =>
        rw [List.cons_append, openings_cons]
        cases hline : Fence.ticks.isClosedBy line with
        | true =>
            simp only [classify, hline, ↓reduceIte, LineClass.fenceAfter]
            exact Nat.le_add_right_of_le (one_le_openings ls rest)
        | false =>
            have hls : ∃ line ∈ ls, Fence.ticks.isClosedBy line = true := by simpa [hline] using h
            simpa [classify, hline, LineClass.fenceAfter, LineClass.isOpening] using ih hls
  rw [openings_tickChars]
  omega

end Classes

theorem step_quiet {line : List Char} {c : Char} (h : (trim line).head? = some c) (hmarker : Fence.isMarker c = false)
    (hless : c ≠ '<') (hsign : c ≠ '#') : ScanState.markdown.step line = (.markdown, false) := by
  obtain ⟨t, ht⟩ := List.head?_eq_some_iff.mp h
  have hopen : Fence.open? line = none := by
    rw [← open?_trim, Fence.open?, trimStart_eq_self (trim_trimmed line).1, ht]
    simp [hmarker]
  have hcomment : commentStart.isPrefixOf (trim line) = false := by
    rw [ht, commentStart, List.isPrefixOf]
    simp [hless.symm]
  have hlevel : headingLevel? line = none := by
    by_contra hsome
    obtain ⟨level, hlevel⟩ := Option.ne_none_iff_exists'.mp hsome
    rw [head?_of_headingLevel? hlevel] at h
    exact hsign (Option.some.inj h).symm
  simp [ScanState.step, hopen, hcomment, headingLevel?_trim, hlevel]

section Result

structure IsResult (name r : List Char) : Prop where
  name_ne_nil : name ≠ []
  name_word : ∀ c ∈ name, Name.isWordChar c = true
  eq_arrow : ∃ gap, (∀ c ∈ gap, isBlank c = true) ∧ r = '-' :: '>' :: (gap ++ bracedChars name)

variable {name r line : List Char}

theorem exists_isResult (h : isReturnLine line = true) : ∃ name, IsResult name (trim line) := by
  unfold isReturnLine at h
  split at h
  · rename_i name rest hmarker
    obtain ⟨gap, hgap, hne, hname, htext⟩ := exists_of_returnMarker hmarker
    have hrest : rest = [] := by
      by_contra hfilled
      have hblank := trim_eq_nil_iff.mp (List.isEmpty_iff.mp h)
      obtain ⟨init, c, rfl⟩ := (List.eq_nil_or_concat' rest).resolve_left hfilled
      have hlast := (trim_trimmed line).2 c (by rw [htext, ← List.append_assoc]; exact List.getLast?_concat)
      rw [hblank c (by simp)] at hlast
      cases hlast
    rw [hrest, List.append_nil] at htext
    exact ⟨name, hne, hname, gap, hgap, htext⟩
  · cases h

namespace IsResult

theorem not_mem (h : IsResult name r) {c : Char} (hc : c ∉ ['-', '>', '\x7b', '\x7d']) (hblank : isBlank c = false)
    (hword : Name.isWordChar c = false) : c ∉ r := by
  obtain ⟨gap, hgap, rfl⟩ := h.eq_arrow
  have hname : c ∉ name := by
    intro hmem
    rw [h.name_word c hmem] at hword
    cases hword
  have hgap : c ∉ gap := by
    intro hmem
    rw [hgap c hmem] at hblank
    cases hblank
  simp only [List.mem_cons, List.not_mem_nil, or_false, not_or] at hc
  simp [bracedChars, hc, hname, hgap]

theorem trimmed (h : IsResult name r) : Trimmed r := by
  obtain ⟨gap, -, rfl⟩ := h.eq_arrow
  constructor
  · rintro c ⟨⟩
    rfl
  · intro c hc
    have hlast : ('-' :: '>' :: (gap ++ bracedChars name)).getLast? = some '\x7d' := by
      rw [bracedChars, ← List.append_assoc, ← List.cons_append, ← List.cons_append, List.getLast?_concat]
    rw [hlast] at hc
    cases hc
    rfl

theorem ne_nil (h : IsResult name r) : r ≠ [] := by
  obtain ⟨gap, -, rfl⟩ := h.eq_arrow
  exact List.cons_ne_nil _ _

theorem still (h : IsResult name r) : Still r :=
  still_of_not_mem (h.not_mem (by decide) (by decide) (by decide)) (h.not_mem (by decide) (by decide) (by decide))

theorem open? (h : IsResult name r) : Fence.open? r = none := by
  obtain ⟨gap, -, rfl⟩ := h.eq_arrow
  rfl

theorem step (h : IsResult name r) : ScanState.markdown.step r = (.markdown, false) := by
  have hhead : (trim r).head? = some '-' := by
    rw [h.trimmed.trim_eq]
    obtain ⟨gap, -, rfl⟩ := h.eq_arrow
    rfl
  exact step_quiet hhead (by decide) (by decide) (by decide)

theorem listItem? (h : IsResult name r) : listItem? r = none := by
  obtain ⟨gap, -, rfl⟩ := h.eq_arrow
  rfl

theorem quotedText? (h : IsResult name r) : quotedText? r = none := by
  obtain ⟨gap, -, rfl⟩ := h.eq_arrow
  rfl

theorem isArrowLine (h : IsResult name r) : isArrowLine r = true := by
  obtain ⟨gap, -, rfl⟩ := h.eq_arrow
  rfl

theorem returnName? (h : IsResult name r) : returnName? r = some name := by
  rw [Markdown.returnName?, h.trimmed.trim_eq]
  obtain ⟨gap, hgap, rfl⟩ := h.eq_arrow
  have hname : trimStart (gap ++ bracedChars name) = bracedChars name ++ [] := by
    rw [trimStart, List.dropWhile_append_of_pos hgap, List.append_nil]
    rfl
  rw [returnMarker?, hname, bracedName?_eq_some_iff.mpr ⟨h.name_ne_nil, h.name_word, rfl⟩]
  rfl

end IsResult

end Result

section Sections

def prompted (b : List Char) : List Char := "# Untitled\n\n## Prompt\n\n".toList ++ b

def promptHead : List (List Char) := ["# Untitled".toList, [], "## Prompt".toList, []]

variable {b : List Char}

theorem joinLines_promptHead {ls : List (List Char)} (h : ls ≠ []) :
    joinLines (promptHead ++ ls) = prompted (joinLines ls) := by
  rw [joinLines_append (by decide) h]
  rfl

theorem lines_prompted (b : List Char) : lines (prompted b) = promptHead ++ lines b := by
  have hsplit : prompted b = "# Untitled".toList ++ '\n' :: ([] ++ '\n' :: ("## Prompt".toList ++ '\n' :: ([] ++ '\n' :: b))) :=
    rfl
  rw [hsplit, lines_append _ (by decide) (by decide), lines_append _ (by decide) (by decide),
    lines_append _ (by decide) (by decide), lines_append _ (by decide) (by decide)]
  rfl

theorem cutAtHeadings_promptHead (ls : List (List Char)) :
    cutAtHeadings .markdown (promptHead ++ ls) =
      ([], ["# Untitled".toList, []] :: ("## Prompt".toList :: [] :: (cutAtHeadings .markdown ls).1) ::
        (cutAtHeadings .markdown ls).2) := by
  rfl

theorem classifyFrom_promptHead (ls : List (List Char)) :
    classifyFrom none (promptHead ++ ls) = promptHead.map (fun line => (.outside, line)) ++ classifyFrom none ls := by
  rfl

theorem unwrapParameters_prompted (h : lines b ≠ []) : unwrapParameters (prompted b) = prompted (unwrapParameters b) := by
  have hkept : (promptHead.map fun line => (LineClass.outside, line)).map unwrapClassified = promptHead := by decide
  have hne : (classifiedLines b).map unwrapClassified ≠ [] := by
    intro hnil
    apply h
    rw [← map_snd_classifyFrom none (lines b), ← classifiedLines, List.map_eq_nil_iff.mp hnil]
    rfl
  rw [unwrapParameters_classified, classifiedLines, lines_prompted, classifyFrom_promptHead, List.map_append, hkept,
    ← classifiedLines, joinLines_promptHead hne, unwrapParameters_classified]

theorem readSections_prompted (h : Rests .markdown (lines b)) :
    (splitSections (prompted b)).mapM readSection =
      .ok [⟨"Untitled", 1, ""⟩, ⟨"Prompt", 2, String.ofList (trim (joinLines (lines b)))⟩] := by
  have hrests : cutAtHeadings .markdown (lines b) = (lines b, []) := h
  have htitle : readSection (trim (joinLines ["# Untitled".toList, []])) = .ok ⟨"Untitled", 1, ""⟩ := by decide
  have hprompt : headingLevel? "## Prompt".toList = some 2 := by decide
  have hsplit : splitSections (prompted b) =
      [trim (joinLines ["# Untitled".toList, []]), trim (joinLines ("## Prompt".toList :: [] :: lines b))] := by
    rw [splitSections, lines_prompted, cutAtHeadings_promptHead, hrests]
    dsimp only
    rw [List.filterMap_cons_none rfl, List.filterMap_cons_some (sectionText?_part (by decide)),
      List.filterMap_cons_some (sectionText?_part (by decide)), List.filterMap_nil]
  rw [hsplit, List.mapM_cons, htitle, List.mapM_cons, readSection_joinLines _ (by decide) hprompt,
    trim_joinLines_cons_nil]
  rfl

theorem rests_of_textMarks {s t : List Char} (h : textMarks s = textMarks t) (ht : Rests .markdown (lines t)) :
    Rests .markdown (lines s) := by
  have hproper : ScanState.Proper .markdown := trivial
  have hmarks := cutAtHeadings_marks hproper (lines t)
  rw [show cutAtHeadings .markdown (lines t) = (lines t, []) from ht] at hmarks
  have hrests : Chained .markdown ([lines s].map marks) := by
    change cutAtHeadings .markdown (textMarks s) = (textMarks s, [])
    rw [h]
    exact hmarks
  exact Chained.of_marks hproper hrests

theorem writeFlat_prompted (h : b ≠ []) :
    writeFlat [⟨"Untitled", 1, ""⟩, ⟨"Prompt", 2, String.ofList b⟩] = String.ofList (prompted b) := by
  have hfilled : (String.ofList b).isEmpty = false := by simpa using h
  have htitle : Section.write "#" ⟨"Untitled", 1, ""⟩ = "# Untitled" := rfl
  have hsection : Section.write "##" ⟨"Prompt", 2, String.ofList b⟩ = "## " ++ "Prompt" ++ "\n\n" ++ String.ofList b := by
    rw [Section.write, hfilled]
    rfl
  apply String.toList_injective
  rw [writeFlat, htitle, List.map_singleton, hsection, String.toList_intercalate, List.map_cons, List.map_singleton,
    List.intercalate_cons_cons, List.intercalate_singleton]
  simp only [String.toList_append, String.toList_ofList]
  rfl

theorem headOf_untitled : Book.headOf ⟨"Untitled", 1, ""⟩ = ⟨"Untitled", none, []⟩ := by
  have hempty : "".toList = [] := rfl
  rw [Book.headOf, hempty]
  rfl

theorem textMarks_joinLines_lines (s : List Char) : textMarks (joinLines (lines s)) = textMarks s :=
  textMarks_joinLines fun _ => not_mem_of_mem_lines

variable (htrimmed : Trimmed b) (hrests : Rests .markdown (lines b))

include htrimmed hrests

theorem sectionize_prompted :
    sectionize (prompted b) = .ok ⟨⟨"Untitled", 1, ""⟩, [⟨"Prompt", 2, String.ofList (joinLines (lines b))⟩]⟩ := by
  have hsections := readSections_prompted hrests
  rw [(trimmed_joinLines_lines htrimmed).trim_eq] at hsections
  exact sectionize_of_levels hsections rfl (by simp)

theorem flatten_prompted (hne : lines b ≠ []) :
    flatten (prompted b) = .ok (String.ofList (prompted (joinLines (lines b)))) := by
  have hsections := readSections_prompted hrests
  rw [(trimmed_joinLines_lines htrimmed).trim_eq] at hsections
  rw [flatten, hsections, Except.map, writeFlat_prompted (joinLines_lines_ne_nil htrimmed hne)]

/-- What is read from a book with a single section in which no line begins another one. -/
theorem read_prompted {source : String} {a : List Char}
    (hwrap : wrapFlat (removeComments source.toList) = prompted a) (ha : lines a ≠ []) (hb : unwrapParameters a = b)
    (hne : lines b ≠ []) :
    Book.read source = (Book.sectionOf ⟨"Prompt", 2, String.ofList (joinLines (lines (joinLines (lines b))))⟩).map
      fun t => ⟨⟨"Untitled", none, []⟩, [t], source⟩ := by
  have hprepare : Book.prepare source = .ok (String.ofList (prompted (joinLines (lines b)))) := by
    rw [Book.prepare, hwrap, unwrapParameters_prompted ha, hb, flatten_prompted htrimmed hrests hne]
  have hsections := sectionize_prompted (trimmed_joinLines_lines htrimmed)
    (rests_of_textMarks (textMarks_joinLines_lines b) hrests)
  rw [Book.read, hprepare]
  simp only [bind, Except.bind, String.toList_ofList, hsections, List.mapM_cons, List.mapM_nil, headOf_untitled]
  cases Book.sectionOf ⟨"Prompt", 2, String.ofList (joinLines (lines (joinLines (lines b))))⟩ <;> rfl

end Sections

section Prompts

def quotedPrompt (q r : List Char) : List (List Char) := [['>', ' '] ++ q, [], r]

def fencedPrompt (ls : List (List Char)) (r : List Char) : List (List Char) := tickChars :: (ls ++ [tickChars, [], r])

variable {name r : List Char} (hr : IsResult name r) (hline : '\n' ∉ r)

include hr

theorem endFirmly_fencedPrompt (ls : List (List Char)) : EndFirmly (fencedPrompt ls r) :=
  (((endFirmly_singleton hr.trimmed hr.ne_nil).append [tickChars, []]).append ls).cons

theorem trimmed_fencedPrompt (ls : List (List Char)) : Trimmed (joinLines (fencedPrompt ls r)) := by
  refine ⟨?_, (endFirmly_fencedPrompt hr ls).getLast?_joinLines⟩
  rw [fencedPrompt, joinLines_cons _ (by simp)]
  rintro c ⟨⟩
  rfl

theorem lines_fencedPrompt (hline : '\n' ∉ r) {ls : List (List Char)} (hls : ∀ line ∈ ls, '\n' ∉ line) :
    lines (joinLines (fencedPrompt ls r)) = fencedPrompt (ls.map dropReturn) r := by
  have hnot : ∀ line ∈ fencedPrompt ls r, '\n' ∉ line := by
    simp only [fencedPrompt, List.forall_mem_cons, List.forall_mem_append]
    exact ⟨by decide, hls, by decide, by simp, hline, List.forall_mem_nil _⟩
  have hticks : dropReturn tickChars = tickChars := by decide
  rw [(endFirmly_fencedPrompt hr ls).lines_joinLines hnot, fencedPrompt, fencedPrompt, List.map_cons, List.map_append,
    List.map_cons, List.map_cons, List.map_singleton, hticks, dropReturn_of_trimmed hr.trimmed]
  rfl

theorem classifyFrom_outside : classifyFrom none [[], r] = [(.outside, []), (.outside, r)] := by
  have hclass : classify none r = .outside := classify_eq_outside_iff.mpr ⟨rfl, hr.open?⟩
  change [(LineClass.outside, []), (classify none r, r)] = _
  rw [hclass]

theorem rests_result : Rests .markdown [[], r] := by
  refine Rests.cons rfl (Rests.cons ?_ rfl)
  exact congrArg Prod.snd hr.step

section Fenced

variable {ls : List (List Char)} (hclosed : ∀ line ∈ ls, Fence.ticks.isClosedBy line = false)

include hclosed

theorem classifyFrom_fencedPrompt :
    classifyFrom none (fencedPrompt ls r) = (.opens .ticks, tickChars) ::
      (ls.map (fun line => (.inside, line)) ++ [(.closes, tickChars), (.outside, []), (.outside, r)]) := by
  rw [← classifyFrom_outside hr, ← Piece.classifyFrom_body _ hclosed]
  rfl

theorem rests_fencedPrompt : Rests .markdown (fencedPrompt ls r) := by
  have hbody := cutAtHeadings_body [[], r] hclosed
  rw [show cutAtHeadings .markdown [[], r] = _ from rests_result hr] at hbody
  exact Rests.cons rfl hbody

theorem unwrapParameters_fencedPrompt {s : List Char} (hs : lines s = fencedPrompt ls r) :
    unwrapParameters s = joinLines (fencedPrompt ls r) := by
  have hblank : unwrapLine [] = [] := rfl
  rw [unwrapParameters_classified, classifiedLines, hs, classifyFrom_fencedPrompt hr hclosed]
  simp [unwrapClassified, Function.comp_def, hr.still.2, hblank, fencedPrompt]

theorem outsideLines_fencedPrompt {s : List Char} (hs : lines s = fencedPrompt ls r) : outsideLines s = [[], r] := by
  rw [outsideLines, classifiedLines, hs, classifyFrom_fencedPrompt hr hclosed]
  simp [List.filterMap_map]

theorem codeBlocks_fencedPrompt {s : List Char} (hs : lines s = fencedPrompt ls r) :
    codeBlocks s = [⟨none, String.ofList (joinLines ls)⟩] := by
  have hticks : Fence.open? tickChars = some .ticks := by decide
  have hlanguage : blockLanguage .ticks tickChars = none := by decide
  have henclosed : lines s = [] ++ tickChars :: (ls ++ [tickChars, [], r]) := hs
  have hbelow : codeBlocksIn (classifyFrom (some .ticks) [tickChars, [], r]) = [] := by
    change codeBlocksIn ((.closes, tickChars) :: classifyFrom none [[], r]) = []
    rw [classifyFrom_outside hr]
    rfl
  rw [codeBlocks_enclosed henclosed rfl hticks hclosed, hlanguage, hbelow, List.takeWhile_cons_of_neg (by decide),
    List.append_nil]
  rfl

end Fenced

section Quoted

variable {q s : List Char}

theorem endFirmly_quotedPrompt (q : List Char) : EndFirmly (quotedPrompt q r) :=
  (endFirmly_singleton hr.trimmed hr.ne_nil).append [['>', ' '] ++ q, []]

theorem trimmed_quotedPrompt (q : List Char) : Trimmed (joinLines (quotedPrompt q r)) := by
  refine ⟨?_, (endFirmly_quotedPrompt hr q).getLast?_joinLines⟩
  rw [quotedPrompt, joinLines_cons _ (by simp)]
  rintro c ⟨⟩
  rfl

theorem lines_quotedPrompt (hline : '\n' ∉ r) (hq : Trimmed q) (hne : q ≠ []) (hfeed : '\n' ∉ q) :
    lines (joinLines (quotedPrompt q r)) = quotedPrompt q r := by
  have hnot : ∀ line ∈ quotedPrompt q r, '\n' ∉ line := by
    simp only [quotedPrompt, List.forall_mem_cons]
    exact ⟨by simpa using hfeed, by simp, hline, List.forall_mem_nil _⟩
  have hquote : dropReturn (['>', ' '] ++ q) = ['>', ' '] ++ q := by
    apply dropReturn_eq_self
    rw [List.getLast?_append_of_ne_nil _ hne]
    exact fun hlast => absurd (hq.2 _ hlast) (by decide)
  rw [(endFirmly_quotedPrompt hr q).lines_joinLines hnot, quotedPrompt, List.map_cons, List.map_cons,
    List.map_singleton, hquote, dropReturn_of_trimmed hr.trimmed]
  rfl

theorem classifyFrom_quotedPrompt : classifyFrom none (quotedPrompt q r) =
    [(.outside, ['>', ' '] ++ q), (.outside, []), (.outside, r)] := by
  rw [← classifyFrom_outside hr]
  rfl

theorem rests_quotedPrompt : Rests .markdown (quotedPrompt q r) := by
  have hstep : ScanState.markdown.step (['>', ' '] ++ q) = (.markdown, false) :=
    step_quiet (head?_trim_cons (' ' :: q) (by decide)) (by decide) (by decide) (by decide)
  apply Rests.cons
  · rw [hstep]
  · rw [hstep]
    exact rests_result hr

theorem unwrapParameters_quotedPrompt (hs : lines s = quotedPrompt q r) :
    unwrapParameters s = joinLines (quotedPrompt (unwrapLine q) r) := by
  have hblank : unwrapLine [] = [] := rfl
  have hquote : unwrapLine (['>', ' '] ++ q) = ['>', ' '] ++ unwrapLine q := unwrapLine_append q (by decide)
  rw [unwrapParameters_classified, classifiedLines, hs, classifyFrom_quotedPrompt hr, List.map_cons, List.map_cons,
    List.map_singleton]
  dsimp only [unwrapClassified, ↓reduceIte]
  rw [hquote, hr.still.2, hblank]
  rfl

theorem outsideLines_quotedPrompt (hs : lines s = quotedPrompt q r) : outsideLines s = quotedPrompt q r := by
  rw [outsideLines, classifiedLines, hs, classifyFrom_quotedPrompt hr]
  rfl

theorem codeBlocks_quotedPrompt (hs : lines s = quotedPrompt q r) : codeBlocks s = [] := by
  rw [codeBlocks, classifiedLines, hs, classifyFrom_quotedPrompt hr]
  rfl

end Quoted

section Body

variable {s : List Char} {qs : List (List Char)} (houtside : outsideLines s = qs.map (['>', ' '] ++ ·) ++ [[], r])

include houtside

theorem plainLines_of_outsideLines : plainLines s = [[], r] := by
  have hquotes : (qs.map (['>', ' '] ++ ·)).filter (fun line => (listItem? line).isNone && (quotedText? line).isNone) =
      [] := by
    rw [List.filter_eq_nil_iff, List.forall_mem_map]
    intro q _ hplain
    cases hplain
  rw [plainLines, houtside, List.filter_append, hquotes, List.nil_append, List.filter_cons_of_pos rfl,
    List.filter_cons_of_pos (by simp [hr.listItem?, hr.quotedText?])]
  rfl

theorem listItems_of_outsideLines : listItems s = [] := by
  have hquotes : (qs.map (['>', ' '] ++ ·)).filterMap listItem? = [] := by
    rw [List.filterMap_eq_nil_iff, List.forall_mem_map]
    exact fun q _ => rfl
  rw [listItems, houtside, List.filterMap_append, hquotes, List.filterMap_cons_none rfl,
    List.filterMap_cons_none hr.listItem?]
  rfl

theorem quotation?_of_outsideLines : quotation? s = textOfLines? qs := by
  have hquotes : (qs.map (['>', ' '] ++ ·)).filterMap quotedText? = qs := by
    rw [List.filterMap_map]
    exact List.filterMap_some
  rw [quotation?, houtside, List.filterMap_append, hquotes, List.filterMap_cons_none rfl,
    List.filterMap_cons_none hr.quotedText?, List.filterMap_nil, List.append_nil]

theorem sectionOf_outsideLines {content : String} {language : Option String}
    (hcontent : (Body.read s).content = .ok (content, language)) :
    Book.sectionOf ⟨"Prompt", 2, String.ofList s⟩ =
      .ok ⟨"Prompt", "prompt", none, content, language, some (String.ofList name), []⟩ := by
  have hplain := plainLines_of_outsideLines hr houtside
  have hprose : (Body.read s).prose = none := by
    change textOfLines? ((plainLines s).filter (!isArrowLine ·)) = none
    rw [hplain, List.filter_cons_of_pos rfl, List.filter_cons_of_neg (by simp [hr.isArrowLine])]
    rfl
  have hresult : (Body.read s).result = some (String.ofList name) := by
    change ((plainLines s).filterMap returnName?).getLast?.map String.ofList = some (String.ofList name)
    rw [hplain, List.filterMap_cons_none rfl, List.filterMap_cons_some hr.returnName?]
    rfl
  have hdescription : (Body.read s).description = none := by
    rw [Body.description, hprose, ite_self]
  have hname : Name.ofTitle "Prompt" = "prompt" := by decide
  have hlist : (Body.read s).listItems = [] := listItems_of_outsideLines hr houtside
  rw [Book.sectionOf, String.toList_ofList]
  dsimp only
  rw [hcontent]
  dsimp only
  rw [hdescription, hresult, hlist, hname]

end Body

theorem sectionOf_fencedPrompt {s : List Char} {ls : List (List Char)}
    (hclosed : ∀ line ∈ ls, Fence.ticks.isClosedBy line = false) (hs : lines s = fencedPrompt ls r) :
    Book.sectionOf ⟨"Prompt", 2, String.ofList s⟩ =
      .ok ⟨"Prompt", "prompt", none, String.ofList (trim (joinLines ls)), none, some (String.ofList name), []⟩ := by
  have houtside : outsideLines s = [].map (['>', ' '] ++ ·) ++ [[], r] := outsideLines_fencedPrompt hr hclosed hs
  have hblocks : (Body.read s).codeBlocks = [⟨none, String.ofList (joinLines ls)⟩] := codeBlocks_fencedPrompt hr hclosed hs
  apply sectionOf_outsideLines hr houtside
  rw [Body.content, hblocks]
  dsimp only
  rw [trimmed, String.toList_ofList]

theorem sectionOf_quotedPrompt {s q : List Char} (hq : Trimmed q) (hne : q ≠ []) (hs : lines s = quotedPrompt q r) :
    Book.sectionOf ⟨"Prompt", 2, String.ofList s⟩ =
      .ok ⟨"Prompt", "prompt", none, String.ofList q, none, some (String.ofList name), []⟩ := by
  have houtside : outsideLines s = [q].map (['>', ' '] ++ ·) ++ [[], r] := outsideLines_quotedPrompt hr hs
  have hblocks : (Body.read s).codeBlocks = [] := codeBlocks_quotedPrompt hr hs
  have hquotation : (Body.read s).quotation = some (String.ofList q) := by
    change quotation? s = _
    rw [quotation?_of_outsideLines hr houtside, textOfLines?, joinLines_singleton, hq.trim_eq]
    obtain ⟨c, q, rfl⟩ := List.exists_cons_of_ne_nil hne
    rfl
  apply sectionOf_outsideLines hr houtside
  rw [Body.content, hblocks, hquotation]

end Prompts

end BookCompiler.Markdown
