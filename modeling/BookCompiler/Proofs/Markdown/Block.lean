import BookCompiler.Proofs.Markdown.Manuscript
import BookCompiler.Proofs.Text.Words

namespace BookCompiler.Markdown

open Text

/-- A line that is read as prose wherever it stands outside code blocks. -/
structure PlainLine (line : List Char) : Prop where
  isLine : IsLine line
  noFence : Fence.open? line = none
  noHeading : headingLevel? line = none
  noItem : listItem? line = none
  noQuotation : quotedText? line = none
  noArrow : isArrowLine line = false
  still : Still line

instance (line : List Char) : Decidable (PlainLine line) :=
  decidable_of_iff (IsLine line ∧ Fence.open? line = none ∧ headingLevel? line = none ∧ listItem? line = none ∧
      quotedText? line = none ∧ isArrowLine line = false ∧ Still line)
    ⟨fun ⟨a, b, c, d, e, f, g⟩ => ⟨a, b, c, d, e, f, g⟩,
      fun ⟨a, b, c, d, e, f, g⟩ => ⟨a, b, c, d, e, f, g⟩⟩

/-- Pieces that belong together, with no blank line at their ends. -/
structure IsBlock (b : List Piece) : Prop where
  sound : ∀ x ∈ b, x.Sound
  still : ∀ x ∈ b, x.Still
  inSection : ∀ x ∈ b, x.InSection
  trimmed : Trimmed (pieceText b)
  ne_nil : pieceText b ≠ []

theorem IsBlock.lines_ne_nil {b : List Piece} (h : IsBlock b) : pieceLines b ≠ [] := by
  intro e
  apply h.ne_nil
  rw [pieceText, e]
  rfl

namespace Page

def ofBlocks (title : List Char) (blocks : List (List Piece)) : Page := ⟨title, List.intercalate [.text []] blocks⟩

variable {title : List Char} {blocks : List (List Piece)}

theorem content_ofBlocks (h : ∀ b ∈ blocks, IsBlock b) :
    (ofBlocks title blocks).content = List.intercalate ['\n', '\n'] (blocks.map pieceText) := by
  rw [content, ofBlocks, pieceText, Manuscript.pieceLines_intercalate, joinLines_intercalate, List.map_map]
  · rfl
  · intro ls hls
    obtain ⟨b, hb, rfl⟩ := List.mem_map.mp hls
    exact (h b hb).lines_ne_nil

theorem forall_ofBlocks {P : Piece → Prop} (hblank : P (.text [])) (h : ∀ b ∈ blocks, ∀ x ∈ b, P x) :
    ∀ x ∈ (ofBlocks title blocks).pieces, P x := by
  intro x hx
  rcases mem_intercalate hx with rfl | ⟨b, hb, hx⟩
  · exact hblank
  · exact h b hb x hx

theorem ofBlocks_sound (htrimmed : Trimmed title) (hline : '\n' ∉ title) (hstill : Markdown.Still title)
    (h : ∀ b ∈ blocks, IsBlock b) : (ofBlocks title blocks).Sound := by
  have htexts : ∀ s ∈ blocks.map pieceText, Trimmed s ∧ s ≠ [] := by
    intro s hs
    obtain ⟨b, hb, rfl⟩ := List.mem_map.mp hs
    exact ⟨(h b hb).trimmed, (h b hb).ne_nil⟩
  have hcontent : Trimmed (ofBlocks title blocks).content ∧
      (blocks.map pieceText ≠ [] → (ofBlocks title blocks).content ≠ []) := by
    rw [content_ofBlocks h]
    exact trimmed_intercalate htexts
  refine ⟨htrimmed, hline, hstill, ?_, ?_, ?_, hcontent.1, ?_⟩
  · exact forall_ofBlocks blank_sound fun b hb => (h b hb).sound
  · exact forall_ofBlocks blank_still fun b hb => (h b hb).still
  · exact forall_ofBlocks blank_inSection fun b hb => (h b hb).inSection
  · intro hpieces
    apply hcontent.2
    intro hnil
    rw [List.map_eq_nil_iff.mp hnil] at hpieces
    exact hpieces rfl

theorem lines_ofBlocks (level : Nat) (hne : blocks ≠ []) (h : ∀ b ∈ blocks, IsBlock b) :
    (ofBlocks title blocks).lines level =
      List.intercalate [[]] ([(ofBlocks title blocks).heading level] :: blocks.map pieceLines) := by
  obtain ⟨b, bs, rfl⟩ := List.exists_cons_of_ne_nil hne
  have hb : b ≠ [] := fun e => (h b List.mem_cons_self).ne_nil (by rw [e]; rfl)
  have hpieces : (ofBlocks title (b :: bs)).pieces.isEmpty = false := by
    rw [ofBlocks]
    cases bs <;> simp [List.intercalate_cons_cons, hb]
  rw [lines, hpieces, List.map_cons, List.intercalate_cons_cons, ← List.map_cons, ← Manuscript.pieceLines_intercalate]
  rfl

end Page

theorem pieceLines_text (ls : List (List Char)) : pieceLines (ls.map .text) = ls := by
  induction ls with
  | nil => rfl
  | cons l ls ih => exact congrArg (l :: ·) ih

structure IsProse (s : List Char) : Prop where
  trimmed : Trimmed s
  ne_nil : s ≠ []
  plain : ∀ line ∈ s.splitOn '\n', PlainLine line

def proseBlock (s : List Char) : List Piece := (s.splitOn '\n').map .text

theorem pieceText_proseBlock (s : List Char) : pieceText (proseBlock s) = s := by
  rw [pieceText, proseBlock, pieceLines_text, joinLines_splitOn]

theorem IsProse.isBlock {s : List Char} (h : IsProse s) : IsBlock (proseBlock s) := by
  have hplain {x : Piece} (hx : x ∈ proseBlock s) : ∃ line, x = .text line ∧ PlainLine line := by
    obtain ⟨line, hline, rfl⟩ := List.mem_map.mp hx
    exact ⟨line, rfl, h.plain line hline⟩
  constructor
  · intro x hx
    obtain ⟨line, rfl, hline⟩ := hplain hx
    exact ⟨hline.isLine, hline.noFence⟩
  · intro x hx
    obtain ⟨line, rfl, hline⟩ := hplain hx
    exact hline.still
  · intro x hx
    obtain ⟨line, rfl, hline⟩ := hplain hx
    exact hline.noHeading
  · rw [pieceText_proseBlock]
    exact h.trimmed
  · rw [pieceText_proseBlock]
    exact h.ne_nil

structure Item where
  first : List Char
  more : List (List Char)

namespace Item

def text (i : Item) : List Char := joinLines (i.first :: i.more)

def lines (i : Item) : List (List Char) := ('-' :: ' ' :: i.first) :: i.more

structure Sound (i : Item) : Prop where
  trimmed : Trimmed i.first
  ne_nil : i.first ≠ []
  isLine : '\n' ∉ i.first
  still : Still i.first
  plain : ∀ line ∈ i.more, PlainLine line
  text_trimmed : Trimmed i.text

theorem Sound.text_ne_nil {i : Item} (h : i.Sound) : i.text ≠ [] := by
  rw [text]
  cases i.more with
  | nil => simpa [joinLines_singleton] using h.ne_nil
  | cons l ls => simp [joinLines_cons_cons]

end Item

def itemsBlock (items : List Item) : List Piece := (items.flatMap Item.lines).map .text

theorem joinLines_itemLines (i : Item) : joinLines i.lines = '-' :: ' ' :: i.text := by
  rw [Item.lines, Item.text]
  cases i.more with
  | nil => rfl
  | cons l ls => simp [joinLines_cons_cons]

theorem pieceText_itemsBlock (items : List Item) :
    pieceText (itemsBlock items) = List.intercalate ['\n'] (items.map fun i => '-' :: ' ' :: i.text) := by
  have hne : ∀ ls ∈ items.map Item.lines, ls ≠ [] := by simp [Item.lines]
  rw [pieceText, itemsBlock, pieceLines_text, List.flatMap_def, joinLines, intercalate_flatten hne, List.map_map]
  congr 1
  exact List.map_congr_left fun i _ => joinLines_itemLines i

section

variable {s : List Char}

theorem trimmed_item (htrimmed : Trimmed s) (hne : s ≠ []) : Trimmed ('-' :: ' ' :: s) := by
  constructor
  · rintro c ⟨⟩
    rfl
  · intro c hc
    rw [List.getLast?_cons_of_ne_nil (List.cons_ne_nil _ _), List.getLast?_cons_of_ne_nil hne] at hc
    exact htrimmed.2 c hc

theorem isLine_of_trimmed (htrimmed : Trimmed s) (hline : '\n' ∉ s) : IsLine s := by
  refine ⟨hline, fun hlast => ?_⟩
  exact absurd (htrimmed.2 _ hlast) (by decide)

theorem headingLevel?_dash (s : List Char) : headingLevel? ('-' :: s) = none := by
  obtain ⟨t, ht⟩ : ∃ t, trim ('-' :: s) = '-' :: t := by
    obtain ⟨t, ht⟩ := List.head?_eq_some_iff.mp (head?_trim_cons s (show isBlank '-' = false from rfl))
    exact ⟨t, ht⟩
  rw [headingLevel?, ht]
  rfl

theorem listItem?_item (htrimmed : Trimmed s) (hne : s ≠ []) (hline : '\n' ∉ s) :
    listItem? ('-' :: ' ' :: s) = some s := by
  have hafter : afterListMarker? (trimStart ('-' :: ' ' :: s)) = some (' ' :: s) := rfl
  have hstart : trimStart (' ' :: s) = s := by rw [trimStart_cons_blank _ rfl, trimStart_eq_self htrimmed.1]
  have hblank : isBlank ' ' = true := rfl
  rw [listItem?, hafter]
  simp [hstart, hblank, hne, hline, trimEnd_eq_self htrimmed.2]

end

theorem itemsBlock_isBlock {items : List Item} (hne : items ≠ []) (h : ∀ i ∈ items, i.Sound) :
    IsBlock (itemsBlock items) := by
  have hcases {x : Piece} (hx : x ∈ itemsBlock items) :
      ∃ line, x = .text line ∧ IsLine line ∧ Fence.open? line = none ∧ headingLevel? line = none ∧ Still line := by
    obtain ⟨line, hline, rfl⟩ := List.mem_map.mp hx
    obtain ⟨i, hi, hline⟩ := List.mem_flatMap.mp hline
    have hs := h i hi
    refine ⟨line, rfl, ?_⟩
    rcases List.mem_cons.mp hline with rfl | hline
    · refine ⟨isLine_of_trimmed (trimmed_item hs.trimmed hs.ne_nil) (by simpa using hs.isLine), rfl,
        headingLevel?_dash _, ?_⟩
      exact (still_append (a := ['-', ' ']) i.first (by decide) (by decide)).mpr hs.still
    · have hplain := hs.plain line hline
      exact ⟨hplain.isLine, hplain.noFence, hplain.noHeading, hplain.still⟩
  have htext : ∀ s ∈ items.map (fun i => '-' :: ' ' :: i.text), Trimmed s ∧ s ≠ [] := by
    intro s hs
    obtain ⟨i, hi, rfl⟩ := List.mem_map.mp hs
    exact ⟨trimmed_item (h i hi).text_trimmed (h i hi).text_ne_nil, List.cons_ne_nil _ _⟩
  constructor
  · intro x hx
    obtain ⟨line, rfl, hline, hopen, -, -⟩ := hcases hx
    exact ⟨hline, hopen⟩
  · intro x hx
    obtain ⟨line, rfl, -, -, -, hstill⟩ := hcases hx
    exact hstill
  · intro x hx
    obtain ⟨line, rfl, -, -, hheading, -⟩ := hcases hx
    exact hheading
  · rw [pieceText_itemsBlock]
    exact (trimmed_intercalate htext).1
  · rw [pieceText_itemsBlock]
    exact (trimmed_intercalate htext).2 (by simpa using hne)

def codeBlock (info content : List Char) : List Piece := [.code info (content.splitOn '\n')]

theorem pieceLines_codeBlock (info content : List Char) :
    pieceLines (codeBlock info content) = (tickChars ++ info) :: (content.splitOn '\n' ++ [tickChars]) := by
  simp [pieceLines, codeBlock, Piece.lines]

theorem pieceText_codeBlock (info content : List Char) :
    pieceText (codeBlock info content) = tickChars ++ info ++ '\n' :: (content ++ '\n' :: tickChars) := by
  have hne : content.splitOn '\n' ≠ [] := List.splitOnP_ne_nil _ content
  rw [pieceText, pieceLines_codeBlock, joinLines_cons _ (by simp), joinLines_append hne (List.cons_ne_nil _ _), joinLines_splitOn,
    joinLines_singleton]

/-- A text that a code block can hold. -/
def Boxable (content : List Char) : Prop :=
  ∀ line ∈ content.splitOn '\n', IsLine line ∧ Fence.ticks.isClosedBy line = false

instance (content : List Char) : Decidable (Boxable content) := by
  unfold Boxable
  infer_instance

def IsInfo (info : List Char) : Prop :=
  IsLine (tickChars ++ info) ∧ Fence.open? (tickChars ++ info) = some .ticks

instance (info : List Char) : Decidable (IsInfo info) := by
  unfold IsInfo
  infer_instance

theorem codeBlock_isBlock {info content : List Char} (hinfo : IsInfo info) (h : Boxable content) :
    IsBlock (codeBlock info content) := by
  constructor
  · intro x hx
    rw [List.mem_singleton.mp hx]
    exact ⟨hinfo.1, hinfo.2, h⟩
  · intro x hx
    rw [List.mem_singleton.mp hx]
    trivial
  · intro x hx
    rw [List.mem_singleton.mp hx]
    trivial
  · rw [pieceText_codeBlock]
    constructor
    · rintro c ⟨⟩
      rfl
    · intro c hc
      have hlast : (tickChars ++ info ++ '\n' :: (content ++ '\n' :: tickChars)).getLast? = some '\x60' := by
        rw [List.append_cons, ← List.append_assoc, List.append_cons, List.getLast?_append_of_ne_nil _ (by decide)]
        rfl
      rw [hlast] at hc
      cases hc
      rfl
  · rw [pieceText_codeBlock]
    simp [tickChars]

def returnBlock (name : List Char) : List Piece := [.text (returnChars name)]

theorem pieceText_returnBlock (name : List Char) : pieceText (returnBlock name) = returnChars name :=
  joinLines_singleton _

theorem getLast?_returnChars (name : List Char) : (returnChars name).getLast? = some '\x7d' := by
  rw [returnChars, bracedChars, ← List.append_assoc, List.getLast?_concat]

theorem returnChars_trimmed (name : List Char) : Trimmed (returnChars name) := by
  constructor
  · rintro c ⟨⟩
    rfl
  · intro c hc
    rw [getLast?_returnChars] at hc
    cases hc
    rfl

theorem returnBlock_isBlock {name : List Char} (h : ∀ c ∈ name, Name.isWordChar c = true) :
    IsBlock (returnBlock name) := by
  have hnot {c : Char} (hc : Name.isWordChar c = false) : c ∉ name := fun hm => by simp [h c hm] at hc
  have htrimmed := returnChars_trimmed name
  have hmem {c : Char} (hc : c ∉ ['-', '>', ' ', '\x7b', '\x7d']) (hname : c ∉ name) : c ∉ returnChars name := by
    simp [returnChars, bracedChars] at hc ⊢
    simp [hc, hname]
  constructor
  · intro x hx
    rw [List.mem_singleton.mp hx]
    exact ⟨isLine_of_trimmed htrimmed (hmem (by decide) (hnot rfl)), rfl⟩
  · intro x hx
    rw [List.mem_singleton.mp hx]
    exact still_of_not_mem (hmem (by decide) (hnot (by decide))) (hmem (by decide) (hnot (by decide)))
  · intro x hx
    rw [List.mem_singleton.mp hx]
    exact headingLevel?_dash _
  · rw [pieceText_returnBlock]
    exact htrimmed
  · rw [pieceText_returnBlock]
    exact List.cons_ne_nil _ _

end BookCompiler.Markdown
