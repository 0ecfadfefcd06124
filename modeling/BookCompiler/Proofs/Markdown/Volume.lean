import BookCompiler.Proofs.Markdown.Sheet

namespace BookCompiler.Markdown

open Text

/-- An item of a list that may go on over several lines. -/
def Item.ofText (s : List Char) : Item :=
  match s.splitOn '\n' with
  | [] => ⟨[], []⟩
  | line :: lines => ⟨line, lines⟩

theorem Item.text_ofText (s : List Char) : (ofText s).text = s := by
  rw [ofText, text]
  split
  · rename_i hnil
    exact absurd hnil (List.splitOnP_ne_nil _ s)
  · rename_i line lines hlines
    rw [← hlines, joinLines_splitOn]

theorem Item.first_ofText (s : List Char) : (ofText s).first = s.takeWhile (· ≠ '\n') := by
  have hhead : (s.splitOn '\n').head? = some (s.takeWhile (· ≠ '\n')) := by
    induction s with
    | nil => rfl
    | cons c s ih =>
        rw [List.splitOn, List.splitOnP_cons_eq_if_modifyHead]
        by_cases hc : c = '\n'
        · simp [hc]
        · rw [List.splitOn] at ih
          simp [hc, List.head?_modifyHead, ih]
  obtain ⟨lines, hlines⟩ := List.head?_eq_some_iff.mp hhead
  rw [ofText, hlines]

theorem Item.more_ofText (s : List Char) : (ofText s).more = (s.splitOn '\n').tail := by
  rw [ofText]
  split
  · rename_i hnil
    rw [hnil]
    rfl
  · rename_i hlines
    rw [hlines]
    rfl

/-- The head of a book as it is written: its title, its description and its command lines. -/
structure Cover where
  title : String
  description : Option String
  commandLines : List String

namespace Cover

def write (c : Cover) : List String := ["# " ++ c.title] ++ c.description.toList ++ listBlock c.commandLines

def items (c : Cover) : List Item := c.commandLines.map fun line => .ofText line.toList

def listPieces (c : Cover) : List (List Piece) := if c.commandLines = [] then [] else [itemsBlock c.items]

def blocks (c : Cover) : List (List Piece) :=
  (c.description.map fun text => proseBlock text.toList).toList ++ c.listPieces

def page (c : Cover) : Page := .ofBlocks c.title.toList c.blocks

def firstLines (c : Cover) : List String := c.items.map fun i => String.ofList i.first

structure Sound (c : Cover) : Prop where
  title_trimmed : Trimmed c.title.toList
  title_line : '\n' ∉ c.title.toList
  title_still : Still c.title.toList
  description : ∀ text ∈ c.description, IsProse text.toList
  items : ∀ i ∈ c.items, i.Sound

variable {c : Cover}

theorem Sound.isBlock (h : c.Sound) : ∀ b ∈ c.blocks, IsBlock b := by
  intro b hb
  simp only [blocks, List.mem_append, Option.mem_toList, Option.map_eq_some_iff] at hb
  rcases hb with ⟨text, htext, rfl⟩ | hb
  · exact (h.description text htext).isBlock
  · rw [listPieces] at hb
    split at hb
    · cases hb
    · rename_i hne
      rw [List.mem_singleton.mp hb]
      exact itemsBlock_isBlock (by simpa [Cover.items] using hne) h.items

theorem Sound.page_sound (h : c.Sound) : c.page.Sound :=
  Page.ofBlocks_sound h.title_trimmed h.title_line h.title_still h.isBlock

theorem write_eq (c : Cover) : c.write.map String.toList = c.page.heading 1 :: c.blocks.map pieceText := by
  have hheading : ("# " ++ c.title).toList = c.page.heading 1 := by
    rw [String.toList_append]
    rfl
  have hdescription : c.description.toList.map String.toList =
      (c.description.map fun text => proseBlock text.toList).toList.map pieceText := by
    cases c.description <;> simp [pieceText_proseBlock]
  have hlist : (listBlock c.commandLines).map String.toList = c.listPieces.map pieceText := by
    rw [listPieces]
    split
    · rename_i hnil
      rw [hnil]
      rfl
    · rename_i hne
      rw [toList_listBlock hne, List.map_singleton, pieceText_itemsBlock, items, List.map_map]
      simp [Function.comp_def, Item.text_ofText]
  rw [write, blocks]
  simp only [List.map_append, List.map_cons, List.map_nil, hheading, hdescription, hlist]
  rfl

theorem filterMap_item {i : Item} (h : i.Sound) : i.lines.filterMap listItem? = [i.first] := by
  have hmore : i.more.filterMap listItem? = [] :=
    List.filterMap_eq_nil_iff.mpr fun line hline => (h.plain line hline).noItem
  rw [Item.lines, List.filterMap_cons, listItem?_item h.trimmed h.ne_nil h.isLine, hmore]

theorem filterMap_itemLines {items : List Item} (h : ∀ i ∈ items, i.Sound) :
    (items.flatMap fun i => i.lines.filterMap listItem?) = items.map Item.first := by
  induction items with
  | nil => rfl
  | cons i items ih =>
      obtain ⟨hi, hrest⟩ := List.forall_mem_cons.mp h
      rw [List.flatMap_cons, ih hrest, filterMap_item hi]
      rfl

/-- Of the items of a head, only the first lines are command lines. -/
theorem Sound.listItems (h : c.Sound) : Markdown.listItems c.page.content = c.firstLines := by
  have hdescription : (((c.description.map fun text => proseBlock text.toList).toList).map
      (·.filterMap (Piece.onText listItem?))).flatten = [] := by
    cases hd : c.description with
    | none => rfl
    | some text =>
        have hnone := List.filterMap_eq_nil_iff.mpr fun line hline =>
          ((h.description text hd).plain line hline).noItem
        exact (List.append_nil _).trans ((filterMap_textPieces listItem? _).trans hnone)
  have hlist : (c.listPieces.map (·.filterMap (Piece.onText listItem?))).flatten = c.items.map Item.first := by
    rw [listPieces]
    split
    · rename_i hnil
      simp [Cover.items, hnil]
    · rw [List.map_singleton, List.flatten_singleton, itemsBlock, filterMap_textPieces, List.filterMap_flatMap,
        filterMap_itemLines h.items]
  rw [Markdown.listItems, h.page_sound.outsideLines, page, Page.ofBlocks, filterMap_intercalate]
  change (List.intercalate [] _).map _ = _
  rw [intercalate_nil, blocks, List.map_append, List.flatten_append, hdescription, hlist, List.nil_append,
    List.map_map]
  rfl

end Cover

/-- A book as it is written. -/
structure Volume where
  cover : Cover
  sheets : List Sheet

namespace Volume

def blocks (v : Volume) : List String := v.cover.write ++ v.sheets.flatMap Sheet.write

def text (v : Volume) : String := String.intercalate "\n\n" v.blocks ++ "\n"

def manuscript (v : Volume) : Manuscript := ⟨v.cover.page, v.sheets.map Sheet.page⟩

structure Sound (v : Volume) : Prop where
  cover : v.cover.Sound
  sheets : ∀ s ∈ v.sheets, s.Sound

variable {v : Volume}

theorem Sound.manuscript (h : v.Sound) : v.manuscript.Sound := by
  intro p hp
  rcases List.mem_cons.mp hp with rfl | hp
  · exact h.cover.page_sound
  · obtain ⟨s, hs, rfl⟩ := List.mem_map.mp hp
    exact (h.sheets s hs).page_sound

def pageBlocks (level : Nat) (title : List Char) (blocks : List (List Piece)) : List (List (List Char)) :=
  [(Page.ofBlocks title blocks).heading level] :: blocks.map pieceLines

theorem lines_page (level : Nat) {title : List Char} {blocks : List (List Piece)} (h : ∀ b ∈ blocks, IsBlock b) :
    (Page.ofBlocks title blocks).lines level = List.intercalate [[]] (pageBlocks level title blocks) := by
  by_cases hne : blocks = []
  · subst hne
    rfl
  · exact Page.lines_ofBlocks level hne h

theorem joinLines_pageBlocks (level : Nat) (title : List Char) (blocks : List (List Piece)) :
    (pageBlocks level title blocks).map joinLines =
      (Page.ofBlocks title blocks).heading level :: blocks.map pieceText := by
  rw [pageBlocks, List.map_cons, joinLines_singleton, List.map_map]
  rfl

theorem ne_nil_of_mem_pageBlocks {level : Nat} {title : List Char} {blocks : List (List Piece)}
    (h : ∀ b ∈ blocks, IsBlock b) {ls : List (List Char)} (hls : ls ∈ pageBlocks level title blocks) : ls ≠ [] := by
  rcases List.mem_cons.mp hls with rfl | hls
  · exact List.cons_ne_nil _ _
  · obtain ⟨b, hb, rfl⟩ := List.mem_map.mp hls
    exact (h b hb).lines_ne_nil

def pages (v : Volume) : List (List (List (List Char))) :=
  pageBlocks 1 v.cover.title.toList v.cover.blocks :: v.sheets.map fun s => pageBlocks 2 s.title.toList s.blocks

theorem joinLines_pages (h : ∀ s ∈ v.sheets, s.commandLines ≠ []) :
    v.pages.flatten.map joinLines = v.blocks.map String.toList := by
  have hsheets : (v.sheets.map fun s => pageBlocks 2 s.title.toList s.blocks).flatten.map joinLines =
      (v.sheets.flatMap Sheet.write).map String.toList := by
    rw [List.map_flatten, List.map_map, List.map_flatMap, List.flatMap_def]
    congr 1
    refine List.map_congr_left fun s hs => ?_
    rw [Sheet.write_eq (h s hs)]
    exact joinLines_pageBlocks 2 _ _
  rw [pages, blocks, List.flatten_cons, List.map_append, List.map_append, hsheets, Cover.write_eq]
  congr 1
  exact joinLines_pageBlocks 1 _ _

theorem Sound.lines_manuscript (h : v.Sound) : v.manuscript.lines = List.intercalate [[]] v.pages.flatten := by
  have hne : ∀ b ∈ v.pages, b ≠ [] := by
    intro b hb
    rcases List.mem_cons.mp hb with rfl | hb
    · exact List.cons_ne_nil _ _
    · obtain ⟨s, hs, rfl⟩ := List.mem_map.mp hb
      exact List.cons_ne_nil _ _
  rw [intercalate_flatten hne, Manuscript.lines, pagesLines, Manuscript.pages, pages, List.map_cons, List.map_cons,
    List.map_map]
  congr 1
  congr 1
  · exact lines_page 1 h.cover.isBlock
  · rw [Volume.manuscript, List.map_map, List.map_map]
    exact List.map_congr_left fun s hs => lines_page 2 (h.sheets s hs).isBlock

theorem Sound.chars_manuscript (h : v.Sound) : v.manuscript.chars ++ ['\n'] = v.text.toList := by
  have hne : ∀ b ∈ v.pages.flatten, b ≠ [] := by
    intro b hb
    obtain ⟨bs, hbs, hb⟩ := List.mem_flatten.mp hb
    rcases List.mem_cons.mp hbs with rfl | hbs
    · exact ne_nil_of_mem_pageBlocks h.cover.isBlock hb
    · obtain ⟨s, hs, rfl⟩ := List.mem_map.mp hbs
      exact ne_nil_of_mem_pageBlocks (h.sheets s hs).isBlock hb
  rw [Manuscript.chars, h.lines_manuscript, joinLines_intercalate hne,
    joinLines_pages fun s hs => (h.sheets s hs).lines_ne_nil, text, String.toList_append, String.toList_intercalate]
  rfl

theorem mapM_sectionOf {sheets : List Sheet} (h : ∀ s ∈ sheets, s.Sound) :
    ((sheets.map Sheet.page).map (Page.toSection 2)).mapM Book.sectionOf = .ok (sheets.map Sheet.toSection) := by
  rw [List.map_map]
  exact mapM_map_ok fun s hs => (h s hs).sectionOf_page

theorem Sound.read (h : v.Sound) :
    ∃ description, Book.read v.text =
      .ok { head := { title := v.cover.title, description, commandLines := v.cover.firstLines }
            sections := v.sheets.map Sheet.toSection, source := v.text } := by
  have htext : String.ofList (v.manuscript.chars ++ ['\n']) = v.text := by
    rw [h.chars_manuscript, String.ofList_toList]
  have hread := h.manuscript.read (mapM_sectionOf h.sheets)
  rw [htext] at hread
  have htitle : (v.cover.page.toSection 1).title = v.cover.title := String.ofList_toList
  have hcontent : (v.cover.page.toSection 1).content.toList = v.cover.page.content := String.toList_ofList
  refine ⟨(Book.headOf (v.cover.page.toSection 1)).description, hread.trans ?_⟩
  rw [← h.cover.listItems]
  simp only [Book.headOf, Volume.manuscript, htitle, hcontent]
  rfl

end Volume

end BookCompiler.Markdown
