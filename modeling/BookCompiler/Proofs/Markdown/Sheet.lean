import BookCompiler.Compile.Write
import BookCompiler.Proofs.Command.Sound
import BookCompiler.Proofs.Markdown.Block

namespace BookCompiler.Markdown

open Text

section

variable {α : Type}

/-- A function of the lines outside code blocks, on pieces. -/
def Piece.onText (f : List Char → Option α) : Piece → Option α
  | text line => f line
  | code _ _ => none

theorem filterMap_text? (f : List Char → Option α) (ps : List Piece) :
    (ps.filterMap Piece.text?).filterMap f = ps.filterMap (Piece.onText f) := by
  rw [List.filterMap_filterMap]
  congr 1
  funext x
  cases x <;> rfl

theorem filterMap_textPieces (f : List Char → Option α) (ls : List (List Char)) :
    (ls.map Piece.text).filterMap (Piece.onText f) = ls.filterMap f := by
  rw [List.filterMap_map]
  rfl

end

theorem Page.Sound.lines_content {p : Page} (h : p.Sound) : Text.lines p.content = pieceLines p.pieces := by
  apply lines_joinLines (isLine_of_mem_pieceLines h.sound)
  by_cases hp : p.pieces = []
  · simp [hp, pieceLines]
  · exact Manuscript.getLast?_ne_of_trimmed h.trimmed (h.ne_nil hp)

theorem Page.Sound.outsideLines {p : Page} (h : p.Sound) (f : List Char → Option α) :
    (Markdown.outsideLines p.content).filterMap f = p.pieces.filterMap (Piece.onText f) := by
  rw [outsideLines_eq h.sound h.lines_content, filterMap_text?]

theorem returnName?_of_noArrow {line : List Char} (h : isArrowLine line = false) : returnName? line = none := by
  have hmarker : returnMarker? (trim line) = none := by
    unfold returnMarker?
    split
    · rename_i s hs
      have hprefix : ['-', '>'] <+: trimStart line :=
        List.IsPrefix.trans ⟨s, hs.symm⟩ (dropEndWhile_isPrefix isBlank (trimStart line))
      rw [isArrowLine, List.isPrefixOf_iff_prefix.mpr hprefix] at h
      cases h
    · rfl
  rw [returnName?, hmarker]
  rfl

theorem returnName?_returnChars {name : List Char} (hne : name ≠ []) (h : ∀ c ∈ name, Name.isWordChar c = true) :
    returnName? (returnChars name) = some name := by
  obtain ⟨c, cs, rfl⟩ := List.exists_cons_of_ne_nil hne
  have htrim : trim (returnChars (c :: cs)) = returnChars (c :: cs) := (returnChars_trimmed _).trim_eq
  have htake : (c :: cs ++ ['\x7d']).takeWhile Name.isWordChar = c :: cs := by
    rw [List.takeWhile_append_of_pos h]
    simp [show Name.isWordChar '\x7d' = false from rfl]
  have hdrop : (c :: cs ++ ['\x7d']).dropWhile Name.isWordChar = ['\x7d'] := by
    rw [List.dropWhile_append_of_pos h]
    rfl
  have hbraced : bracedName? (bracedChars (c :: cs)) = some (c :: cs, []) := by
    rw [bracedChars, List.cons_append, bracedName?, htake, hdrop]
    rfl
  rw [returnName?, htrim]
  change (bracedName? (bracedChars (c :: cs))).map Prod.fst = _
  rw [hbraced]
  rfl

/-- A section as it is written in a book: its command lines, its description, its content in a code block and
its result. -/
structure Sheet where
  title : String
  commandLines : List String
  description : Option String := none
  language : Option String := none
  content : String
  result : Option String := none

namespace Sheet

def write (s : Sheet) : List String :=
  ["## " ++ s.title] ++ listBlock s.commandLines ++ s.description.toList ++ [fenced s.language s.content] ++
    (s.result.map returnLine).toList

def items (s : Sheet) : List Item := s.commandLines.map fun line => ⟨line.toList, []⟩

def info (s : Sheet) : List Char := (s.language.getD "").toList

def blocks (s : Sheet) : List (List Piece) :=
  [itemsBlock s.items] ++ (s.description.map fun text => proseBlock text.toList).toList ++
    [codeBlock s.info s.content.toList] ++ (s.result.map fun name => returnBlock name.toList).toList

def page (s : Sheet) : Page := .ofBlocks s.title.toList s.blocks

def toSection (s : Sheet) : BookSection where
  title := s.title
  name := Name.ofTitle s.title
  description := s.description
  content := s.content
  language := s.language
  result := s.result
  commandLines := s.commandLines

structure Sound (s : Sheet) : Prop where
  title_trimmed : Trimmed s.title.toList
  title_line : '\n' ∉ s.title.toList
  title_still : Still s.title.toList
  lines_ne_nil : s.commandLines ≠ []
  phrase : ∀ line ∈ s.commandLines, IsPhrase line.toList
  still : ∀ line ∈ s.commandLines, Still line.toList
  description : ∀ text ∈ s.description, IsProse text.toList
  info : IsInfo s.info
  language : blockLanguage .ticks (tickChars ++ s.info) = s.language
  boxable : Boxable s.content.toList
  trimmed : Trimmed s.content.toList
  result : ∀ name ∈ s.result, Name.Valid name

variable {s : Sheet}

theorem Sound.items_sound (h : s.Sound) : ∀ i ∈ s.items, i.Sound := by
  intro i hi
  obtain ⟨line, hline, rfl⟩ := List.mem_map.mp hi
  have hphrase := h.phrase line hline
  exact ⟨hphrase.trimmed, hphrase.ne_nil, hphrase.noFeed, h.still line hline, by simp,
    by simpa [Item.text, joinLines_singleton] using hphrase.trimmed⟩

theorem Sound.isBlock (h : s.Sound) : ∀ b ∈ s.blocks, IsBlock b := by
  intro b hb
  simp only [blocks, List.mem_append, List.mem_singleton, Option.mem_toList, Option.map_eq_some_iff] at hb
  rcases hb with ((rfl | ⟨text, htext, rfl⟩) | rfl) | ⟨name, hname, rfl⟩
  · exact itemsBlock_isBlock (by simpa [items] using h.lines_ne_nil) h.items_sound
  · exact (h.description text htext).isBlock
  · exact codeBlock_isBlock h.info h.boxable
  · exact returnBlock_isBlock (h.result name hname).isWordChar

theorem Sound.page_sound (h : s.Sound) : s.page.Sound :=
  Page.ofBlocks_sound h.title_trimmed h.title_line h.title_still h.isBlock

end Sheet

theorem toList_listBlock {lines : List String} (h : lines ≠ []) :
    (listBlock lines).map String.toList =
      [List.intercalate ['\n'] (lines.map fun line => '-' :: ' ' :: line.toList)] := by
  obtain ⟨line, lines, rfl⟩ := List.exists_cons_of_ne_nil h
  rw [listBlock, List.map_singleton, bulletList, String.toList_intercalate, List.map_map]
  · simp [Function.comp_def]
  · exact List.cons_ne_nil _ _

theorem toList_fenced (language : Option String) (content : String) :
    (fenced language content).toList = pieceText (codeBlock (language.getD "").toList content.toList) := by
  rw [pieceText_codeBlock, fenced]
  simp [tickChars]

theorem toList_returnLine (name : String) : (returnLine name).toList = pieceText (returnBlock name.toList) := by
  rw [pieceText_returnBlock, returnLine, String.toList_append, Name.toList_braced]
  rfl

namespace Sheet

variable {s : Sheet}

theorem write_eq (h : s.commandLines ≠ []) :
    s.write.map String.toList = s.page.heading 2 :: s.blocks.map pieceText := by
  have hlist : (listBlock s.commandLines).map String.toList = [pieceText (itemsBlock s.items)] := by
    rw [toList_listBlock h, pieceText_itemsBlock, items, List.map_map]
    simp [Function.comp_def, Item.text, joinLines_singleton]
  have hheading : ("## " ++ s.title).toList = s.page.heading 2 := by
    rw [String.toList_append]
    rfl
  have hdescription : s.description.toList.map String.toList =
      (s.description.map fun text => proseBlock text.toList).toList.map pieceText := by
    cases s.description <;> simp [pieceText_proseBlock]
  have hresult : (s.result.map returnLine).toList.map String.toList =
      (s.result.map fun name => returnBlock name.toList).toList.map pieceText := by
    cases s.result <;> simp [toList_returnLine]
  rw [write, blocks]
  simp only [List.map_append, List.map_cons, List.map_nil, hheading, hlist, hdescription, hresult, toList_fenced]
  rfl

theorem filterMap_pieces {α : Type} (f : List Char → Option α) (s : Sheet) :
    s.page.pieces.filterMap (Piece.onText f) =
      List.intercalate ((f []).toList)
        ([s.items.flatMap fun i => i.lines.filterMap f] ++
          (s.description.map fun text => (text.toList.splitOn '\n').filterMap f).toList ++ [[]] ++
          (s.result.map fun name => (f (returnChars name.toList)).toList).toList) := by
  have hblank : [Piece.text []].filterMap (Piece.onText f) = (f []).toList := by
    cases hf : f [] <;> simp [Piece.onText, hf]
  have hitems : (itemsBlock s.items).filterMap (Piece.onText f) = s.items.flatMap fun i => i.lines.filterMap f := by
    rw [itemsBlock, filterMap_textPieces, List.filterMap_flatMap]
  have hdescription : (s.description.map fun text => proseBlock text.toList).toList.map
      (·.filterMap (Piece.onText f)) =
        (s.description.map fun text => (text.toList.splitOn '\n').filterMap f).toList := by
    cases s.description with
    | none => rfl
    | some text => exact congrArg (fun ls => [ls]) (filterMap_textPieces f _)
  have hresult : (s.result.map fun name => returnBlock name.toList).toList.map (·.filterMap (Piece.onText f)) =
      (s.result.map fun name => (f (returnChars name.toList)).toList).toList := by
    cases s.result with
    | none => rfl
    | some name => cases hf : f (returnChars name.toList) <;> simp [returnBlock, Piece.onText, hf]
  rw [page, Page.ofBlocks, filterMap_intercalate, hblank, blocks]
  simp only [List.map_append, List.map_cons, List.map_nil, hitems, hdescription, hresult]
  rfl

def isProseLine (line : List Char) : Bool :=
  (listItem? line).isNone && (quotedText? line).isNone && !isArrowLine line

theorem filterMap_items {α : Type} (f : List Char → Option α) (s : Sheet) :
    (s.items.flatMap fun i => i.lines.filterMap f) =
      s.commandLines.filterMap fun line => f ('-' :: ' ' :: line.toList) := by
  rw [items, List.flatMap_map]
  induction s.commandLines with
  | nil => rfl
  | cons line lines ih =>
      rw [List.flatMap_cons, ih, List.filterMap_cons]
      cases hf : f ('-' :: ' ' :: line.toList) <;> simp [Item.lines, hf]

section Read

variable (h : s.Sound)

include h

theorem Sound.plainLine {text : String} (htext : text ∈ s.description) :
    ∀ line ∈ text.toList.splitOn '\n', PlainLine line :=
  (h.description text htext).plain

theorem Sound.listItem?_line {line : String} (hline : line ∈ s.commandLines) :
    listItem? ('-' :: ' ' :: line.toList) = some line.toList :=
  listItem?_item (h.phrase line hline).trimmed (h.phrase line hline).ne_nil (h.phrase line hline).noFeed

theorem Sound.filterMap_content {α : Type} {f : List Char → Option α} (hnil : f [] = none)
    (hplain : ∀ line, PlainLine line → f line = none) :
    (Markdown.outsideLines s.page.content).filterMap f =
      (s.commandLines.filterMap fun line => f ('-' :: ' ' :: line.toList)) ++
        s.result.toList.filterMap fun name => f (returnChars name.toList) := by
  have hdescription : (s.description.map fun text => (text.toList.splitOn '\n').filterMap f).toList.flatten = [] := by
    cases hd : s.description with
    | none => rfl
    | some text =>
        have hnone := List.filterMap_eq_nil_iff.mpr fun line hline => hplain line (h.plainLine hd line hline)
        simpa using hnone
  have hresult : (s.result.map fun name => (f (returnChars name.toList)).toList).toList.flatten =
      s.result.toList.filterMap fun name => f (returnChars name.toList) := by
    cases s.result with
    | none => rfl
    | some name => cases hf : f (returnChars name.toList) <;> simp [hf]
  rw [h.page_sound.outsideLines, filterMap_pieces, filterMap_items, hnil, Option.toList_none, intercalate_nil]
  simp only [List.flatten_append, hdescription, hresult, List.flatten_cons, List.flatten_nil, List.append_nil]

theorem Sound.listItems : Markdown.listItems s.page.content = s.commandLines := by
  have hitems : (s.commandLines.filterMap fun line => listItem? ('-' :: ' ' :: line.toList)) =
      s.commandLines.map String.toList := by
    rw [← List.filterMap_eq_map]
    exact List.filterMap_congr fun line hline => h.listItem?_line hline
  have hresult : (s.result.toList.filterMap fun name => listItem? (returnChars name.toList)) = [] := by
    cases s.result <;> rfl
  rw [Markdown.listItems, h.filterMap_content rfl fun line hline => hline.noItem, hitems, hresult, List.append_nil,
    List.map_map]
  simp [Function.comp_def]

theorem Sound.codeBlocks : Markdown.codeBlocks s.page.content = [⟨s.language, s.content⟩] := by
  have htext (ls : List (List Char)) : (ls.map Piece.text).filterMap Piece.block? = [] := by
    simp [Piece.block?]
  have hdescription : ((s.description.map fun text => proseBlock text.toList).toList.map
      (·.filterMap Piece.block?)).flatten = [] := by
    cases s.description with
    | none => rfl
    | some text => exact (List.append_nil _).trans (htext _)
  have hresult : ((s.result.map fun name => returnBlock name.toList).toList.map
      (·.filterMap Piece.block?)).flatten = [] := by
    cases s.result <;> rfl
  have hcode : (codeBlock s.info s.content.toList).filterMap Piece.block? = [⟨s.language, s.content⟩] := by
    simp [codeBlock, Piece.block?, h.language, joinLines_splitOn]
  rw [codeBlocks_eq h.page_sound.sound h.page_sound.lines_content, page, Page.ofBlocks, filterMap_intercalate]
  change List.intercalate [] _ = _
  rw [intercalate_nil, blocks]
  simp only [List.map_append, List.flatten_append, List.map_cons, List.map_nil, itemsBlock, htext, hdescription,
    hresult, hcode]
  rfl

theorem Sound.prose : textOfLines? ((plainLines s.page.content).filter (!isArrowLine ·)) = s.description := by
  have hfilter : (plainLines s.page.content).filter (!isArrowLine ·) =
      (Markdown.outsideLines s.page.content).filterMap (Option.guard isProseLine) := by
    rw [plainLines, List.filter_filter, List.filterMap_eq_filter]
    congr 1
    funext line
    rw [isProseLine, Bool.and_comm]
  have hitems : (s.commandLines.filterMap fun line => Option.guard isProseLine ('-' :: ' ' :: line.toList)) = [] := by
    rw [List.filterMap_eq_nil_iff]
    intro line hline
    simp [isProseLine, h.listItem?_line hline]
  have hresult : (s.result.map fun name => (Option.guard isProseLine (returnChars name.toList)).toList).toList =
      (s.result.map fun _ => []).toList := by
    cases s.result <;> rfl
  rw [hfilter, h.page_sound.outsideLines, filterMap_pieces, filterMap_items, hitems, hresult]
  cases hd : s.description with
  | none => cases s.result <;> rfl
  | some text =>
      have hprose := h.description text hd
      have hlines : (text.toList.splitOn '\n').filterMap (Option.guard isProseLine) = text.toList.splitOn '\n' := by
        rw [List.filterMap_eq_filter, List.filter_eq_self]
        intro line hline
        have hplain := hprose.plain line hline
        simp [isProseLine, hplain.noItem, hplain.noQuotation, hplain.noArrow]
      have hblank : ((Option.guard isProseLine []).toList : List (List Char)) = [[]] := rfl
      have htext : trim (joinLines (text.toList.splitOn '\n')) = text.toList := by
        rw [joinLines_splitOn, hprose.trimmed.trim_eq]
      have hread (ls : List (List Char)) (hls : trim (joinLines ls) = text.toList) : textOfLines? ls = some text := by
        rw [textOfLines?, hls]
        split
        · exact absurd ‹_› hprose.ne_nil
        · rw [String.ofList_toList]
      simp only [Option.map_some, Option.toList_some, hlines, hblank]
      apply hread
      generalize text.toList.splitOn '\n' = ls at htext
      cases s.result with
      | none =>
          have hlist : List.intercalate [[]] ([[]] ++ [ls] ++ [[]] ++ []) = [] :: (ls ++ [[]]) := by
            simp [List.intercalate_cons_cons]
          rw [Option.map_none, Option.toList_none, hlist, trim_joinLines_cons_nil, trim_joinLines_concat_nil, htext]
      | some name =>
          have hlist : List.intercalate [[]] ([[]] ++ [ls] ++ [[]] ++ [[]]) = [] :: (ls ++ [[]] ++ [[]]) := by
            simp [List.intercalate_cons_cons]
          rw [Option.map_some, Option.toList_some, hlist, trim_joinLines_cons_nil, trim_joinLines_concat_nil,
            trim_joinLines_concat_nil, htext]

theorem Sound.result_read : ((plainLines s.page.content).filterMap returnName?).getLast?.map String.ofList = s.result := by
  have hfilter : (plainLines s.page.content).filterMap returnName? =
      (Markdown.outsideLines s.page.content).filterMap fun line =>
        if (listItem? line).isNone && (quotedText? line).isNone then returnName? line else none := by
    rw [plainLines, List.filterMap_filter]
  have hitems : (s.commandLines.filterMap fun line =>
      if (listItem? ('-' :: ' ' :: line.toList)).isNone && (quotedText? ('-' :: ' ' :: line.toList)).isNone then
        returnName? ('-' :: ' ' :: line.toList) else none) = [] := by
    rw [List.filterMap_eq_nil_iff]
    intro line hline
    rw [h.listItem?_line hline]
    rfl
  rw [hfilter, h.filterMap_content rfl, hitems, List.nil_append]
  · cases hr : s.result with
    | none => rfl
    | some name =>
        have hname := h.result name hr
        have hne : name.toList ≠ [] := hname.isWord.1
        have hitem : listItem? (returnChars name.toList) = none := rfl
        have hquotation : quotedText? (returnChars name.toList) = none := rfl
        simp [hitem, hquotation, returnName?_returnChars hne hname.isWordChar]
  · intro line hline
    rw [returnName?_of_noArrow hline.noArrow, ite_self]

/-- A written section is read back as it was. -/
theorem Sound.sectionOf_page :
    Book.sectionOf (s.page.toSection 2) = .ok s.toSection := by
  have hcontent : (s.page.toSection 2).content.toList = s.page.content := String.toList_ofList
  have htitle : (s.page.toSection 2).title = s.title := String.ofList_toList
  have htrimmed : Text.trimmed s.content = s.content := by rw [Text.trimmed, h.trimmed.trim_eq, String.ofList_toList]
  simp only [Book.sectionOf, Body.read, Body.content, Body.description, hcontent, htitle, h.prose, h.codeBlocks,
    h.listItems, h.result_read, htrimmed]
  rfl

end Read

end Sheet

end BookCompiler.Markdown
