import BookCompiler.Markdown.Section
import BookCompiler.Proofs.Markdown.Piece

namespace BookCompiler.Markdown

open Text

theorem isPrefixOf_of_contains_false {pattern s t : List Char} (h : contains pattern s = false) (ht : t <:+: s) :
    pattern.isPrefixOf t = false := by
  rw [Bool.eq_false_iff]
  intro hp
  obtain ⟨u, rfl⟩ := List.isPrefixOf_iff_prefix.mp hp
  obtain ⟨a, b, rfl⟩ := ht
  clear hp
  induction a with
  | nil =>
      cases pattern with
      | nil => cases u <;> cases b <;> simp [contains] at h
      | cons c pattern =>
          simp only [List.nil_append, List.cons_append, contains, Bool.or_eq_false_iff] at h
          have hpre : (c :: pattern) <+: c :: (pattern ++ u ++ b) := ⟨u ++ b, by simp⟩
          rw [List.isPrefixOf_iff_prefix.mpr hpre] at h
          exact absurd h.1 (by decide)
  | cons c a ih =>
      simp only [List.cons_append, contains, Bool.or_eq_false_iff] at h
      exact ih h.2

/-- A line that stands in the text of a section. -/
def Piece.InSection : Piece → Prop
  | text line => headingLevel? line = none
  | code _ _ => True

theorem headingLevel?_trim (line : List Char) : headingLevel? (trim line) = headingLevel? line := by
  rw [headingLevel?, headingLevel?, (trim_trimmed line).trim_eq]

theorem step_markdown {line : List Char} (hopen : Fence.open? line = none) (hstill : Still line) :
    ScanState.markdown.step line = (.markdown, (headingLevel? line).isSome) := by
  have hcomment := isPrefixOf_of_contains_false hstill.1 (trim_isInfix line)
  simp [ScanState.step, hopen, hcomment, headingLevel?_trim]

theorem cutAtHeadings_body {body : List (List Char)} (rest : List (List Char))
    (h : ∀ line ∈ body, Fence.ticks.isClosedBy line = false) :
    cutAtHeadings (.code .ticks) (body ++ tickChars :: rest) =
      (body ++ tickChars :: (cutAtHeadings .markdown rest).1, (cutAtHeadings .markdown rest).2) := by
  induction body with
  | nil =>
      have hclosed : Fence.ticks.isClosedBy tickChars = true := by decide
      simp [cutAtHeadings, ScanState.step, hclosed]
  | cons line body ih =>
      have hline := h line List.mem_cons_self
      have hbody := ih fun l hl => h l (List.mem_cons_of_mem line hl)
      simp [cutAtHeadings, ScanState.step, hline, hbody]

theorem cutAtHeadings_piece {x : Piece} (rest : List (List Char)) (h : x.Sound) (hstill : x.Still)
    (hin : x.InSection) :
    cutAtHeadings .markdown (x.lines ++ rest) =
      (x.lines ++ (cutAtHeadings .markdown rest).1, (cutAtHeadings .markdown rest).2) := by
  cases x with
  | text line =>
      have hhead : headingLevel? line = none := hin
      simp [Piece.lines, cutAtHeadings, step_markdown h.2 hstill, hhead]
  | code info body =>
      have hbody := cutAtHeadings_body rest fun l hl => (h.2.2 l hl).2
      have hstep : ScanState.markdown.step (tickChars ++ info) = (.code .ticks, false) := by
        simp [ScanState.step, h.2.1]
      rw [Piece.lines, List.cons_append, cutAtHeadings, hstep, List.append_assoc, List.singleton_append]
      simp [hbody]

theorem cutAtHeadings_pieces {ps : List Piece} (rest : List (List Char)) (h : ∀ x ∈ ps, x.Sound)
    (hstill : ∀ x ∈ ps, x.Still) (hin : ∀ x ∈ ps, x.InSection) :
    cutAtHeadings .markdown (pieceLines ps ++ rest) =
      (pieceLines ps ++ (cutAtHeadings .markdown rest).1, (cutAtHeadings .markdown rest).2) := by
  induction ps with
  | nil => rfl
  | cons x ps ih =>
      have hps := ih (fun y hy => h y (List.mem_cons_of_mem x hy)) (fun y hy => hstill y (List.mem_cons_of_mem x hy))
        (fun y hy => hin y (List.mem_cons_of_mem x hy))
      rw [pieceLines] at hps
      rw [pieceLines, List.flatMap_cons, List.append_assoc, cutAtHeadings_piece _ (h x List.mem_cons_self)
        (hstill x List.mem_cons_self) (hin x List.mem_cons_self), hps, List.append_assoc]

theorem sectionize_of_levels {s : List Char} {head : Section} {rest : List Section}
    (h : (splitSections s).mapM readSection = .ok (head :: rest)) (hhead : head.level = 1)
    (hrest : ∀ t ∈ rest, t.level = 2) : sectionize s = .ok ⟨head, rest⟩ := by
  have hfind : rest.find? (fun t => t.level ≠ 2) = none := by
    rw [List.find?_eq_none]
    intro t ht
    simp [hrest t ht]
  unfold sectionize
  rw [h]
  change (if head.level ≠ 1 then _ else _) = _
  rw [if_neg (not_not_intro hhead), hfind]

/-- A title with what stands below it. -/
structure Page where
  title : List Char
  pieces : List Piece

namespace Page

def heading (level : Nat) (p : Page) : List Char := List.replicate level '#' ++ ' ' :: p.title

def content (p : Page) : List Char := pieceText p.pieces

def lines (level : Nat) (p : Page) : List (List Char) :=
  p.heading level :: if p.pieces.isEmpty then [] else [] :: pieceLines p.pieces

def toSection (level : Nat) (p : Page) : Section :=
  { title := String.ofList p.title, level, content := String.ofList p.content }

structure Sound (p : Page) : Prop where
  title_trimmed : Trimmed p.title
  title_line : '\n' ∉ p.title
  title_still : Still p.title
  sound : ∀ x ∈ p.pieces, x.Sound
  still : ∀ x ∈ p.pieces, x.Still
  inSection : ∀ x ∈ p.pieces, x.InSection
  trimmed : Trimmed p.content
  ne_nil : p.pieces ≠ [] → p.content ≠ []

variable {p : Page} {level : Nat}

theorem trim_heading (h : Trimmed p.title) (hlevel : 0 < level) :
    trim (p.heading level) = if p.title = [] then List.replicate level '#' else p.heading level := by
  have hsigns : Trimmed (List.replicate level '#') := by
    constructor
    · intro c hc
      rw [List.mem_replicate.mp (List.mem_of_mem_head? hc) |>.2]
      rfl
    · intro c hc
      rw [List.mem_replicate.mp (List.mem_of_mem_getLast? hc) |>.2]
      rfl
  have hne : List.replicate level '#' ≠ [] := by
    intro e
    rw [List.replicate_eq_nil_iff] at e
    omega
  split
  · rename_i ht
    rw [heading, ht, trim, trimStart_eq_self, trimEnd, dropEndWhile, List.reverse_append]
    · change (List.dropWhile isBlank (' ' :: (List.replicate level '#').reverse)).reverse = _
      rw [List.dropWhile_cons_of_pos (by decide)]
      exact trimEnd_eq_self hsigns.2
    · intro c hc
      rw [List.head?_append_of_ne_nil _ hne] at hc
      exact hsigns.1 c hc
  · rename_i ht
    have htrimmed := hsigns.append [' '] h hne ht
    rw [List.append_assoc, List.singleton_append] at htrimmed
    exact htrimmed.trim_eq

theorem headingLevel?_heading (h : Trimmed p.title) (hlevel : 0 < level) (hdeep : level ≤ deepestHeading) :
    headingLevel? (p.heading level) = some level := by
  rw [headingLevel?, trim_heading h hlevel]
  have hne : level ≠ 0 := by omega
  split
  · simp [hne, hdeep]
  · have hblank : isBlank ' ' = true := rfl
    simp [heading, hne, hdeep, hblank]

theorem title_heading (h : Trimmed p.title) (hlevel : 0 < level) :
    trim ((trim (p.heading level)).drop level) = p.title := by
  rw [trim_heading h hlevel]
  split
  · rename_i ht
    rw [ht, List.drop_of_length_le (by simp)]
    rfl
  · rw [heading, List.drop_append_of_le_length (by simp), List.drop_of_length_le (by simp), List.nil_append, trim,
      trimStart, List.dropWhile_cons_of_pos (by decide)]
    exact h.trim_eq

def text (level : Nat) (p : Page) : List Char := trim (joinLines (p.lines level))

theorem text_of_isEmpty (h : p.pieces.isEmpty = true) : p.text level = trim (p.heading level) := by
  rw [text, lines, if_pos h, joinLines_singleton]

theorem trimmed_heading_append {s : List Char} (m : List Char) (hlevel : 0 < level) (hs : Trimmed s)
    (hne : s ≠ []) : Trimmed (p.heading level ++ m ++ s) := by
  constructor
  · intro c hc
    obtain ⟨n, rfl⟩ := Nat.exists_eq_succ_of_ne_zero (Nat.pos_iff_ne_zero.mp hlevel)
    rw [heading, List.replicate_succ, List.cons_append, List.cons_append, List.cons_append, List.head?_cons] at hc
    rw [← Option.mem_some.mp hc]
    rfl
  · intro c hc
    rw [List.getLast?_append_of_ne_nil _ hne] at hc
    exact hs.2 c hc

theorem text_of_ne_nil (h : p.Sound) (hlevel : 0 < level) (hne : p.pieces ≠ []) :
    p.text level = p.heading level ++ '\n' :: '\n' :: p.content := by
  have hempty : ¬ p.pieces.isEmpty = true := by simpa using hne
  have hlines : pieceLines p.pieces ≠ [] := fun e => h.ne_nil hne (by rw [content, pieceText, e]; rfl)
  have htrimmed := trimmed_heading_append (p := p) ['\n', '\n'] hlevel h.trimmed (h.ne_nil hne)
  rw [text, lines, if_neg hempty, joinLines_cons _ (List.cons_ne_nil _ _), joinLines_cons _ hlines]
  rw [List.append_assoc] at htrimmed
  exact htrimmed.trim_eq

theorem not_mem_heading (h : '\n' ∉ p.title) : '\n' ∉ p.heading level := by
  simp [heading, h]

theorem readSection_text (h : p.Sound) (hlevel : 0 < level) (hdeep : level ≤ deepestHeading) :
    readSection (p.text level) = .ok (p.toSection level) := by
  have hhead := headingLevel?_heading h.title_trimmed hlevel hdeep
  have hnot : '\n' ∉ p.heading level := not_mem_heading h.title_line
  have hline : ∀ c ∈ p.heading level, decide (c = '\n') = false := fun c hc => decide_eq_false fun e => hnot (e ▸ hc)
  have htext : trim (p.text level) = p.text level := (trim_trimmed _).trim_eq
  rw [readSection, htext]
  by_cases hp : p.pieces = []
  · have hsplit : splitOnce (· = '\n') (trim (p.heading level)) = none :=
      splitOnce_eq_none_iff.mpr fun c hc => hline c (mem_trim hc)
    rw [text_of_isEmpty (by simp [hp]), hsplit]
    have htitle := title_heading h.title_trimmed hlevel
    simp only [Option.getD_none, headingLevel?_trim, hhead, (trim_trimmed _).trim_eq, htitle]
    simp [toSection, content, pieceText, pieceLines, hp, joinLines_nil, trim, trimStart, trimEnd, dropEndWhile]
  · rw [text_of_ne_nil h hlevel hp, splitOnce_append _ hline (by rfl)]
    have hcontent : trim ('\n' :: p.content) = p.content := by
      rw [trim, trimStart, List.dropWhile_cons_of_pos (by decide)]
      exact h.trimmed.trim_eq
    simp only [Option.getD_some, hhead, title_heading h.title_trimmed hlevel, hcontent]
    rfl

theorem heading_eq_cons (hlevel : 0 < level) : ∃ s, p.heading level = '#' :: s := by
  obtain ⟨n, rfl⟩ := Nat.exists_eq_succ_of_ne_zero (Nat.pos_iff_ne_zero.mp hlevel)
  exact ⟨_, by rw [heading, List.replicate_succ, List.cons_append]⟩

theorem text_eq_cons (h : p.Sound) (hlevel : 0 < level) : ∃ s, p.text level = '#' :: s := by
  obtain ⟨s, hs⟩ := heading_eq_cons (p := p) hlevel
  by_cases hp : p.pieces = []
  · rw [text_of_isEmpty (by simp [hp]), trim_heading h.title_trimmed hlevel]
    split
    · obtain ⟨n, rfl⟩ := Nat.exists_eq_succ_of_ne_zero (Nat.pos_iff_ne_zero.mp hlevel)
      exact ⟨_, List.replicate_succ⟩
    · exact ⟨s, hs⟩
  · rw [text_of_ne_nil h hlevel hp, hs]
    exact ⟨_, rfl⟩

theorem still_heading (h : Still p.title) : Still (p.heading level) := by
  rw [heading, List.append_cons]
  exact (still_append p.title (by simp) (by simp)).mpr h

theorem open?_heading (hlevel : 0 < level) : Fence.open? (p.heading level) = none := by
  obtain ⟨s, hs⟩ := heading_eq_cons (p := p) hlevel
  have hblank : isBlank '#' = false := rfl
  have hmarker : Fence.isMarker '#' = false := rfl
  simp [hs, Fence.open?, trimStart, hblank, hmarker]

def below (p : Page) : List Piece := if p.pieces.isEmpty then [] else .text [] :: p.pieces

theorem lines_eq (level : Nat) (p : Page) : p.lines level = p.heading level :: pieceLines p.below := by
  rw [lines, below]
  split <;> rfl

theorem forall_below {P : Piece → Prop} (hblank : P (.text [])) (h : ∀ x ∈ p.pieces, P x) : ∀ x ∈ p.below, P x := by
  intro x hx
  rw [below] at hx
  split at hx
  · cases hx
  · rcases List.mem_cons.mp hx with rfl | hx
    · exact hblank
    · exact h x hx

theorem blank_sound : (Piece.text []).Sound := ⟨by decide, by decide⟩

theorem blank_still : (Piece.text []).Still := show Markdown.Still [] by decide

theorem blank_inSection : (Piece.text []).InSection := show headingLevel? [] = none by decide

theorem cutAtHeadings_page (rest : List (List Char)) (h : p.Sound) (hlevel : 0 < level)
    (hdeep : level ≤ deepestHeading) :
    cutAtHeadings .markdown (p.lines level ++ rest) =
      ([], (p.lines level ++ (cutAtHeadings .markdown rest).1) :: (cutAtHeadings .markdown rest).2) := by
  have hstep := step_markdown (open?_heading (p := p) hlevel) (still_heading h.title_still)
  have hbelow := cutAtHeadings_pieces rest (forall_below blank_sound h.sound) (forall_below blank_still h.still)
    (forall_below blank_inSection h.inSection)
  rw [headingLevel?_heading h.title_trimmed hlevel hdeep] at hstep
  rw [lines_eq, List.cons_append, cutAtHeadings, hstep]
  simp [hbelow]

theorem sectionText?_group {group : List (List Char)} (h : p.Sound) (hlevel : 0 < level)
    (hgroup : trim (joinLines group) = p.text level) : sectionText? group = some (p.text level) := by
  obtain ⟨s, hs⟩ := text_eq_cons h hlevel
  rw [sectionText?, hgroup, hs]
  rfl

end Page

def pagesLines (pages : List (Nat × Page)) : List (List Char) :=
  List.intercalate [[]] (pages.map fun q => q.2.lines q.1)

theorem cutAtHeadings_pages {pages : List (Nat × Page)} (hne : pages ≠ []) (h : ∀ q ∈ pages, q.2.Sound)
    (hlevel : ∀ q ∈ pages, 0 < q.1 ∧ q.1 ≤ deepestHeading) :
    ∃ groups, cutAtHeadings .markdown (pagesLines pages) = ([], groups) ∧
      groups.filterMap sectionText? = pages.map fun q => q.2.text q.1 := by
  induction pages with
  | nil => exact absurd rfl hne
  | cons q pages ih =>
      obtain ⟨level, p⟩ := q
      have hp : p.Sound := h (level, p) List.mem_cons_self
      obtain ⟨hpos, hdeep⟩ := hlevel (level, p) List.mem_cons_self
      cases pages with
      | nil =>
          have hcut := Page.cutAtHeadings_page [] hp hpos hdeep
          simp only [cutAtHeadings, List.append_nil] at hcut
          refine ⟨[p.lines level], by simpa [pagesLines] using hcut, ?_⟩
          simp [Page.sectionText?_group hp hpos rfl]
      | cons r pages =>
          obtain ⟨groups, hgroups, hmap⟩ := ih (List.cons_ne_nil r pages) (fun q hq => h q (List.mem_cons_of_mem _ hq))
            (fun q hq => hlevel q (List.mem_cons_of_mem _ hq))
          have hblank : cutAtHeadings .markdown ([] :: pagesLines (r :: pages)) = ([[]], groups) := by
            have hcut := cutAtHeadings_piece (pagesLines (r :: pages)) Page.blank_sound Page.blank_still
              Page.blank_inSection
            rwa [hgroups] at hcut
          have hcut := Page.cutAtHeadings_page ([] :: pagesLines (r :: pages)) hp hpos hdeep
          rw [hblank] at hcut
          have hgroup : trim (joinLines (p.lines level ++ [[]])) = p.text level := by
            rw [joinLines_append (by simp [Page.lines]) (List.cons_ne_nil _ _), joinLines_singleton]
            exact trim_append_blank _ (by decide)
          refine ⟨(p.lines level ++ [[]]) :: groups, ?_, ?_⟩
          · rw [pagesLines, List.map_cons, List.map_cons, List.intercalate_cons_cons, List.append_assoc]
            exact hcut
          · rw [List.filterMap_cons_some (Page.sectionText?_group hp hpos hgroup), hmap]
            rfl

end BookCompiler.Markdown
