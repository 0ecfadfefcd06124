import BookCompiler.Book
import BookCompiler.Proofs.Markdown.Page
import BookCompiler.Proofs.Outcome

namespace BookCompiler.Markdown

open Text

/-- A book laid out on pages. -/
structure Manuscript where
  head : Page
  rest : List Page

namespace Manuscript

def pages (m : Manuscript) : List (Nat × Page) := (1, m.head) :: m.rest.map fun p => (2, p)

def lines (m : Manuscript) : List (List Char) := pagesLines m.pages

def chars (m : Manuscript) : List Char := joinLines m.lines

def Sound (m : Manuscript) : Prop := ∀ p ∈ m.head :: m.rest, p.Sound

variable {m : Manuscript}

theorem Sound.page (h : m.Sound) : ∀ q ∈ m.pages, q.2.Sound := by
  intro q hq
  rcases List.mem_cons.mp hq with rfl | hq
  · exact h m.head List.mem_cons_self
  · obtain ⟨p, hp, rfl⟩ := List.mem_map.mp hq
    exact h p (List.mem_cons_of_mem _ hp)

theorem level_of_mem_pages {q : Nat × Page} (hq : q ∈ m.pages) : 0 < q.1 ∧ q.1 ≤ deepestHeading := by
  rcases List.mem_cons.mp hq with rfl | hq
  · exact ⟨Nat.one_pos, (by decide : 1 ≤ deepestHeading)⟩
  · obtain ⟨p, hp, rfl⟩ := List.mem_map.mp hq
    exact ⟨Nat.two_pos, (by decide : 2 ≤ deepestHeading)⟩

def pieces (m : Manuscript) : List Piece :=
  List.intercalate [.text []] (m.pages.map fun q => .text (q.2.heading q.1) :: q.2.below)

theorem pieceLines_intercalate (ps : List (List Piece)) :
    pieceLines (List.intercalate [.text []] ps) = List.intercalate [[]] (ps.map pieceLines) := by
  induction ps with
  | nil => rfl
  | cons p ps ih =>
      cases ps with
      | nil => simp
      | cons q ps =>
          rw [List.intercalate_cons_cons, List.map_cons, List.map_cons, List.intercalate_cons_cons, ← List.map_cons,
            ← ih]
          simp [pieceLines, Piece.lines]

theorem pieceLines_pieces (m : Manuscript) : pieceLines m.pieces = m.lines := by
  rw [pieces, pieceLines_intercalate, lines, pagesLines, List.map_map]
  congr 1
  apply List.map_congr_left
  intro q _
  rw [Page.lines_eq]
  rfl

theorem forall_pieces {P : Piece → Prop} (hblank : P (.text []))
    (hheading : ∀ q ∈ m.pages, P (.text (q.2.heading q.1))) (h : ∀ q ∈ m.pages, ∀ x ∈ q.2.pieces, P x) :
    ∀ x ∈ m.pieces, P x := by
  intro x hx
  rcases mem_intercalate hx with rfl | ⟨l, hl, hx⟩
  · exact hblank
  · obtain ⟨q, hq, rfl⟩ := List.mem_map.mp hl
    rcases List.mem_cons.mp hx with rfl | hx
    · exact hheading q hq
    · exact Page.forall_below hblank (h q hq) x hx

end Manuscript

theorem Page.isLine_heading {p : Page} {level : Nat} (htitle : Trimmed p.title) (hline : '\n' ∉ p.title) :
    IsLine (p.heading level) := by
  refine ⟨Page.not_mem_heading hline, ?_⟩
  rw [Page.heading, List.append_cons]
  by_cases ht : p.title = []
  · simp [ht]
  · rw [List.getLast?_append_of_ne_nil _ ht]
    intro e
    exact absurd (htitle.2 _ e) (by decide)

namespace Manuscript

variable {m : Manuscript}

theorem Sound.pieces (h : m.Sound) : ∀ x ∈ m.pieces, x.Sound := by
  apply forall_pieces Page.blank_sound
  · intro q hq
    have hpage := h.page q hq
    exact ⟨Page.isLine_heading hpage.title_trimmed hpage.title_line, Page.open?_heading (level_of_mem_pages hq).1⟩
  · exact fun q hq => (h.page q hq).sound

theorem Sound.still (h : m.Sound) : ∀ x ∈ m.pieces, x.Still := by
  apply forall_pieces Page.blank_still
  · exact fun q hq => Page.still_heading (h.page q hq).title_still
  · exact fun q hq => (h.page q hq).still

theorem Sound.isLine (h : m.Sound) : ∀ l ∈ m.lines, IsLine l := by
  rw [← pieceLines_pieces]
  exact isLine_of_mem_pieceLines h.pieces

theorem lines_ne_nil (m : Manuscript) : m.lines ≠ [] := by
  rw [lines, pagesLines, pages, List.map_cons]
  cases m.rest <;> simp [List.intercalate_cons_cons, Page.lines]

theorem getLast?_ne_of_trimmed {ls : List (List Char)} (h : Trimmed (joinLines ls)) (hne : joinLines ls ≠ []) :
    ls.getLast? ≠ some [] := by
  intro hlast
  obtain ⟨init, rfl⟩ := List.getLast?_eq_some_iff.mp hlast
  by_cases hinit : init = []
  · subst hinit
    exact hne (joinLines_singleton [])
  · rw [joinLines_append hinit (List.cons_ne_nil _ _), joinLines_singleton] at h
    exact absurd (h.2 '\n' (by simp)) (by decide)

theorem getLast?_page {p : Page} {level : Nat} (h : p.Sound) : (p.lines level).getLast? ≠ some [] := by
  rw [Page.lines]
  split
  · simp [Page.heading]
  · rename_i hp
    have hne : p.pieces ≠ [] := by simpa using hp
    have hlines : pieceLines p.pieces ≠ [] := fun e => h.ne_nil hne (by rw [Page.content, pieceText, e]; rfl)
    rw [List.getLast?_cons_of_ne_nil (List.cons_ne_nil _ _), List.getLast?_cons_of_ne_nil hlines]
    exact getLast?_ne_of_trimmed h.trimmed (h.ne_nil hne)

theorem getLast?_intercalate {α : Type} {sep : List α} {x : α} {bs : List (List α)}
    (h : ∀ b ∈ bs, b ≠ [] ∧ b.getLast? ≠ some x) : (List.intercalate sep bs).getLast? ≠ some x := by
  induction bs with
  | nil => exact Option.some_ne_none x |>.symm
  | cons b bs ih =>
      obtain ⟨hb, hbs⟩ := List.forall_mem_cons.mp h
      cases bs with
      | nil =>
          rw [List.intercalate_singleton]
          exact hb.2
      | cons c bs =>
          have hne : List.intercalate sep (c :: bs) ≠ [] := by
            obtain ⟨y, ys, rfl⟩ := List.exists_cons_of_ne_nil (hbs c List.mem_cons_self).1
            cases bs <;> simp [List.intercalate_cons_cons]
          rw [List.intercalate_cons_cons, List.getLast?_append_of_ne_nil _ hne]
          exact ih hbs

theorem getLast?_pagesLines {pages : List (Nat × Page)} (h : ∀ q ∈ pages, q.2.Sound) :
    (pagesLines pages).getLast? ≠ some [] := by
  apply getLast?_intercalate
  intro b hb
  obtain ⟨q, hq, rfl⟩ := List.mem_map.mp hb
  exact ⟨List.cons_ne_nil _ _, getLast?_page (h q hq)⟩

theorem Sound.lines_chars (h : m.Sound) : Text.lines m.chars = m.lines :=
  lines_joinLines h.isLine (getLast?_pagesLines h.page)

theorem Sound.splitSections (h : m.Sound) :
    Markdown.splitSections m.chars = m.pages.map fun q => q.2.text q.1 := by
  obtain ⟨groups, hcut, hgroups⟩ := cutAtHeadings_pages (List.cons_ne_nil _ _) h.page
    fun q hq => level_of_mem_pages hq
  have hlines : cutAtHeadings .markdown m.lines = ([], groups) := hcut
  simp only [Markdown.splitSections, h.lines_chars, hlines, List.filterMap_cons]
  exact hgroups

theorem Sound.readSections (h : m.Sound) :
    (Markdown.splitSections m.chars).mapM readSection = .ok (m.pages.map fun q => q.2.toSection q.1) := by
  rw [h.splitSections]
  apply mapM_map_ok
  intro q hq
  obtain ⟨hpos, hdeep⟩ := level_of_mem_pages hq
  exact Page.readSection_text (h.page q hq) hpos hdeep

theorem Sound.sectionize (h : m.Sound) :
    Markdown.sectionize m.chars = .ok ⟨m.head.toSection 1, m.rest.map (Page.toSection 2)⟩ := by
  have hmap : m.pages.map (fun q => q.2.toSection q.1) = m.head.toSection 1 :: m.rest.map (Page.toSection 2) := by
    rw [pages, List.map_cons, List.map_map]
    rfl
  apply sectionize_of_levels
  · rw [h.readSections, hmap]
  · rfl
  · intro t ht
    obtain ⟨p, hp, rfl⟩ := List.mem_map.mp ht
    rfl

theorem toList_write {p : Page} {level : Nat} {signs : String} (h : p.Sound)
    (hsigns : signs.toList = List.replicate level '#') :
    ((p.toSection level).write signs).toList = joinLines (p.lines level) := by
  rw [Section.write, Page.lines]
  by_cases hp : p.pieces = []
  · have hcontent : p.content = [] := by simp [Page.content, pieceText, pieceLines, hp, joinLines_nil]
    simp [Page.toSection, hcontent, hp, joinLines_singleton, hsigns, Page.heading]
  · have hlines : pieceLines p.pieces ≠ [] := fun e => h.ne_nil hp (by rw [Page.content, pieceText, e]; rfl)
    have hcontent : p.content ≠ [] := h.ne_nil hp
    have hempty : p.pieces.isEmpty = false := by simpa using hp
    have hjoin : joinLines (p.heading level :: [] :: pieceLines p.pieces) =
        p.heading level ++ '\n' :: '\n' :: p.content := by
      rw [joinLines_cons _ (List.cons_ne_nil _ _), joinLines_cons _ hlines]
      rfl
    rw [hempty, if_neg Bool.false_ne_true, hjoin]
    simp [Page.toSection, hcontent, hsigns, Page.heading]

theorem toList_writeFlat (h : m.Sound) :
    (writeFlat (m.head.toSection 1 :: m.rest.map (Page.toSection 2))).toList = m.chars := by
  have hblocks : ∀ b ∈ m.pages.map (fun q => q.2.lines q.1), b ≠ [] := by
    intro b hb
    obtain ⟨q, hq, rfl⟩ := List.mem_map.mp hb
    exact List.cons_ne_nil _ _
  rw [chars, lines, pagesLines, joinLines_intercalate hblocks, writeFlat, String.toList_intercalate]
  congr 1
  rw [pages, List.map_cons, List.map_cons, List.map_cons, toList_write (h m.head List.mem_cons_self) rfl,
    List.map_map, List.map_map, List.map_map, List.map_map]
  congr 1
  apply List.map_congr_left
  intro p hp
  exact toList_write (h p (List.mem_cons_of_mem _ hp)) rfl

theorem Sound.flatten (h : m.Sound) : Markdown.flatten m.chars = .ok (String.ofList m.chars) := by
  rw [Markdown.flatten, h.readSections, ← toList_writeFlat h, String.ofList_toList, pages, List.map_cons, List.map_map]
  rfl

theorem wrapFlat_chars (m : Manuscript) : wrapFlat m.chars = m.chars := by
  obtain ⟨s, hs⟩ : ∃ s, m.chars = '#' :: s := by
    obtain ⟨t, ht⟩ := Page.heading_eq_cons (p := m.head) Nat.one_pos
    have hlines : ∃ ls, m.lines = ('#' :: t) :: ls := by
      rw [lines, pagesLines, pages, List.map_cons, Page.lines, ht]
      cases m.rest <;> simp [List.intercalate_cons_cons]
    obtain ⟨ls, hls⟩ := hlines
    rw [chars, hls]
    cases ls with
    | nil => exact ⟨t, joinLines_singleton _⟩
    | cons l ls => exact ⟨_, joinLines_cons_cons _ l ls⟩
  have hflat : isFlat m.chars = false := by
    rw [isFlat, hs]
    simp [head?_trim_cons s (show isBlank '#' = false from rfl)]
  rw [wrapFlat, hflat]
  rfl

theorem Sound.prepare (h : m.Sound) :
    Book.prepare (String.ofList (m.chars ++ ['\n'])) = .ok (String.ofList m.chars) := by
  have hchars : pieceText m.pieces = m.chars := by rw [pieceText, pieceLines_pieces, chars]
  have hended : Text.lines (m.chars ++ ['\n']) = pieceLines m.pieces := by
    rw [pieceLines_pieces]
    exact lines_joinLines_append h.isLine m.lines_ne_nil
  have hlines : Text.lines m.chars = pieceLines m.pieces := by rw [pieceLines_pieces, h.lines_chars]
  rw [Book.prepare, String.toList_ofList, removeComments_eq h.pieces h.still hended, hchars, m.wrapFlat_chars,
    unwrapParameters_eq h.pieces h.still hlines, hchars, h.flatten]

/-- Reading the text of a sound manuscript takes it apart into its pages. -/
theorem Sound.read (h : m.Sound) {sections : List BookSection}
    (hsections : (m.rest.map (Page.toSection 2)).mapM Book.sectionOf = .ok sections) :
    Book.read (String.ofList (m.chars ++ ['\n'])) =
      .ok { head := Book.headOf (m.head.toSection 1), sections, source := String.ofList (m.chars ++ ['\n']) } := by
  rw [Book.read, h.prepare]
  simp only [bind, Except.bind, String.toList_ofList, h.sectionize, hsections]
  rfl

end Manuscript

end BookCompiler.Markdown
