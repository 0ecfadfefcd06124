import BookCompiler.Markdown.Body
import BookCompiler.Markdown.Comment
import BookCompiler.Proofs.Text.Lines

namespace BookCompiler.Markdown

open Text

def Fence.ticks : Fence := ⟨'\x60', 3⟩

def tickChars : List Char := ['\x60', '\x60', '\x60']

/-- A part of a text: a line outside code blocks, or a code block with what stands after its fence. -/
inductive Piece where
  | text (line : List Char)
  | code (info : List Char) (body : List (List Char))

namespace Piece

def lines : Piece → List (List Char)
  | text line => [line]
  | code info body => (tickChars ++ info) :: (body ++ [tickChars])

def classes : Piece → List (LineClass × List Char)
  | text line => [(.outside, line)]
  | code info body =>
    (.opens .ticks, tickChars ++ info) :: (body.map (fun line => (.inside, line)) ++ [(.closes, tickChars)])

/-- A line opens no code block, and the body of a code block does not close it. -/
def Sound : Piece → Prop
  | text line => IsLine line ∧ Fence.open? line = none
  | code info body =>
    IsLine (tickChars ++ info) ∧ Fence.open? (tickChars ++ info) = some .ticks ∧
      ∀ line ∈ body, IsLine line ∧ Fence.ticks.isClosedBy line = false

def text? : Piece → Option (List Char)
  | text line => some line
  | code _ _ => none

def block? : Piece → Option CodeBlock
  | text _ => none
  | code info body => some ⟨blockLanguage .ticks (tickChars ++ info), String.ofList (joinLines body)⟩

theorem Sound.isLine {x : Piece} (h : x.Sound) : ∀ line ∈ x.lines, IsLine line := by
  cases x with
  | text line =>
      intro l hl
      rw [List.mem_singleton.mp hl]
      exact h.1
  | code info body =>
      intro l hl
      rcases List.mem_cons.mp hl with rfl | hl
      · exact h.1
      · rcases List.mem_append.mp hl with hl | hl
        · exact (h.2.2 l hl).1
        · rw [List.mem_singleton.mp hl]
          decide

theorem classifyFrom_body {body : List (List Char)} (rest : List (List Char))
    (h : ∀ line ∈ body, Fence.ticks.isClosedBy line = false) :
    classifyFrom (some .ticks) (body ++ tickChars :: rest) =
      body.map (fun line => (.inside, line)) ++ (.closes, tickChars) :: classifyFrom none rest := by
  induction body with
  | nil => rfl
  | cons line body ih =>
      have hline := h line List.mem_cons_self
      have hclass : classify (some .ticks) line = .inside := by simp [classify, hline]
      rw [List.cons_append, classifyFrom, hclass]
      exact congrArg _ (ih fun l hl => h l (List.mem_cons_of_mem line hl))

theorem classifyFrom_lines {x : Piece} (rest : List (List Char)) (h : x.Sound) :
    classifyFrom none (x.lines ++ rest) = x.classes ++ classifyFrom none rest := by
  cases x with
  | text line =>
      have hclass : classify none line = .outside := by simp [classify, h.2]
      rw [lines, List.singleton_append, classifyFrom, hclass]
      rfl
  | code info body =>
      have hclass : classify none (tickChars ++ info) = .opens .ticks := by simp [classify, h.2.1]
      have hbody := classifyFrom_body rest fun l hl => (h.2.2 l hl).2
      rw [lines, List.cons_append, classifyFrom, hclass, List.append_assoc, List.singleton_append]
      simp only [LineClass.fenceAfter, hbody, classes, List.cons_append, List.append_assoc, List.nil_append]

end Piece

def pieceLines (ps : List Piece) : List (List Char) := ps.flatMap Piece.lines

def pieceText (ps : List Piece) : List Char := joinLines (pieceLines ps)

section

variable {ps : List Piece} {s : List Char}

theorem isLine_of_mem_pieceLines (h : ∀ x ∈ ps, x.Sound) : ∀ line ∈ pieceLines ps, IsLine line := by
  intro line hline
  obtain ⟨x, hx, hl⟩ := List.mem_flatMap.mp hline
  exact (h x hx).isLine line hl

theorem classifyFrom_pieceLines (h : ∀ x ∈ ps, x.Sound) :
    classifyFrom none (pieceLines ps) = ps.flatMap Piece.classes := by
  induction ps with
  | nil => rfl
  | cons x ps ih =>
      have hps := ih fun y hy => h y (List.mem_cons_of_mem x hy)
      rw [pieceLines, List.flatMap_cons, Piece.classifyFrom_lines _ (h x List.mem_cons_self)]
      rw [pieceLines] at hps
      rw [hps, List.flatMap_cons]

theorem classifiedLines_eq (h : ∀ x ∈ ps, x.Sound) (hs : lines s = pieceLines ps) :
    classifiedLines s = ps.flatMap Piece.classes := by
  rw [classifiedLines, hs, classifyFrom_pieceLines h]

theorem outsideLines_eq (h : ∀ x ∈ ps, x.Sound) (hs : lines s = pieceLines ps) :
    outsideLines s = ps.filterMap Piece.text? := by
  rw [outsideLines, classifiedLines_eq h hs]
  clear hs h
  induction ps with
  | nil => rfl
  | cons x ps ih =>
      rw [List.flatMap_cons, List.filterMap_append, ih]
      cases x with
      | text line => rfl
      | code info body => simp [Piece.classes, Piece.text?, List.filterMap_map, List.filterMap_cons]

theorem codeBlocksIn_body (body : List (List Char)) (rest : List (LineClass × List Char)) :
    codeBlocksIn (body.map (fun line => (.inside, line)) ++ rest) = codeBlocksIn rest := by
  induction body with
  | nil => rfl
  | cons line body ih => simpa [codeBlocksIn] using ih

theorem codeBlocks_eq (h : ∀ x ∈ ps, x.Sound) (hs : lines s = pieceLines ps) :
    codeBlocks s = ps.filterMap Piece.block? := by
  rw [codeBlocks, classifiedLines_eq h hs]
  clear hs h
  induction ps with
  | nil => rfl
  | cons x ps ih =>
      rw [List.flatMap_cons]
      cases x with
      | text line => simpa [Piece.classes, Piece.block?, codeBlocksIn, List.filterMap_cons] using ih
      | code info body =>
          have htake : (body.map (fun line => (LineClass.inside, line)) ++
              ((.closes, tickChars) :: ps.flatMap Piece.classes)).takeWhile (fun p => p.1 = .inside) =
                body.map (fun line => (.inside, line)) := by
            induction body with
            | nil => rfl
            | cons line body ih => simp
          rw [Piece.classes, List.cons_append, codeBlocksIn, List.append_assoc, List.singleton_append]
          rw [htake, codeBlocksIn_body]
          simpa [Piece.block?, codeBlocksIn, Function.comp_def, List.filterMap_cons] using ih

theorem bracedName?_eq_some_iff {s name rest : List Char} : bracedName? s = some (name, rest) ↔
    name ≠ [] ∧ (∀ c ∈ name, Name.isWordChar c = true) ∧ s = bracedChars name ++ rest := by
  constructor
  · intro h
    unfold bracedName? at h
    split at h
    · rename_i s
      split at h
      · rename_i c tail rest' htake hdrop
        cases h
        refine ⟨List.cons_ne_nil _ _, ?_, ?_⟩
        · rw [← htake]
          exact fun d hd => List.mem_takeWhile_imp hd
        · rw [← List.takeWhile_append_dropWhile (p := Name.isWordChar) (l := s), htake, hdrop]
          simp [bracedChars]
      · cases h
    · cases h
  · rintro ⟨hne, hword, rfl⟩
    obtain ⟨c, tail, rfl⟩ := List.exists_cons_of_ne_nil hne
    have hclose : Name.isWordChar '\x7d' = false := rfl
    have htake : (c :: tail ++ '\x7d' :: rest).takeWhile Name.isWordChar = c :: tail := by
      rw [List.takeWhile_append_of_pos hword, List.takeWhile_cons_of_neg (by simp [hclose]), List.append_nil]
    have hdrop : (c :: tail ++ '\x7d' :: rest).dropWhile Name.isWordChar = '\x7d' :: rest := by
      rw [List.dropWhile_append_of_pos hword, List.dropWhile_cons_of_neg (by simp [hclose])]
    have hchars : bracedChars (c :: tail) ++ rest = '\x7b' :: (c :: tail ++ '\x7d' :: rest) := by simp [bracedChars]
    rw [hchars, bracedName?, htake, hdrop]
    rfl

/-- A line in which nothing is taken for a comment or for a parameter in backticks. -/
def Still (line : List Char) : Prop := contains commentStart line = false ∧ unwrapLine line = line

instance (line : List Char) : Decidable (Still line) := by
  unfold Still
  infer_instance

theorem replaceAll_cons (find? : List Char → Option (List Char × List Char)) (write : List Char → List Char)
    {c : Char} (s : List Char) (h : c ≠ '\x60') :
    replaceAll (ticked? find?) write 0 (c :: s) = c :: replaceAll (ticked? find?) write 0 s := by
  have hnone : ticked? find? (c :: s) = none := by
    unfold ticked?
    split
    · rename_i e
      exact absurd (List.cons.inj e).1 h
    · rfl
  simp [replaceAll, hnone]

theorem unwrapLine_append {a : List Char} (s : List Char) (h : '\x60' ∉ a) :
    unwrapLine (a ++ s) = a ++ unwrapLine s := by
  induction a with
  | nil => rfl
  | cons c a ih =>
      rw [List.mem_cons, not_or] at h
      rw [unwrapLine] at ih ⊢
      rw [List.cons_append, replaceAll_cons _ _ _ (Ne.symm h.1), replaceAll_cons _ _ _ (Ne.symm h.1), ih h.2,
        List.cons_append, unwrapLine]

theorem contains_commentStart_append {a : List Char} (s : List Char) (h : '<' ∉ a) :
    contains commentStart (a ++ s) = contains commentStart s := by
  induction a with
  | nil => rfl
  | cons c a ih =>
      rw [List.mem_cons, not_or] at h
      have hc : ('<' == c) = false := by simpa using h.1
      simpa [contains, commentStart, List.isPrefixOf, hc] using ih h.2

theorem still_append {a : List Char} (s : List Char) (htick : '\x60' ∉ a) (hless : '<' ∉ a) :
    Still (a ++ s) ↔ Still s := by
  rw [Still, Still, contains_commentStart_append s hless, unwrapLine_append s htick, List.append_cancel_left_eq]

theorem still_of_not_mem {line : List Char} (htick : '\x60' ∉ line) (hless : '<' ∉ line) : Still line := by
  have h := (still_append [] htick hless).mpr (by decide)
  rwa [List.append_nil] at h

def Piece.Still : Piece → Prop
  | text line => Markdown.Still line
  | code _ _ => True

theorem uncommentLines_body (body : List (List Char)) (rest : List (LineClass × List Char)) :
    uncommentLines false (body.map (fun line => (.inside, line)) ++ rest) =
      body ++ uncommentLines false rest := by
  induction body with
  | nil => rfl
  | cons line body ih => simpa [uncommentLines] using ih

theorem uncommentLines_classes (h : ∀ x ∈ ps, x.Still) :
    uncommentLines false (ps.flatMap Piece.classes) = pieceLines ps := by
  induction ps with
  | nil => rfl
  | cons x ps ih =>
      have hps := ih fun y hy => h y (List.mem_cons_of_mem x hy)
      have hx := h x List.mem_cons_self
      rw [List.flatMap_cons, pieceLines, List.flatMap_cons]
      cases x with
      | text line =>
          have hline : uncommentLine false line = (some line, false) := by
            simp [uncommentLine, show contains commentStart line = false from hx.1]
          rw [Piece.classes, List.singleton_append, uncommentLines, if_pos rfl, hline]
          exact congrArg (line :: ·) hps
      | code info body =>
          rw [pieceLines] at hps
          simp [Piece.classes, Piece.lines, uncommentLines, uncommentLines_body, hps]

theorem removeComments_eq (h : ∀ x ∈ ps, x.Sound) (hstill : ∀ x ∈ ps, x.Still) (hs : lines s = pieceLines ps) :
    removeComments s = pieceText ps := by
  rw [removeComments, classifiedLines_eq h hs, uncommentLines_classes hstill, pieceText]

theorem unwrapParameters_eq (h : ∀ x ∈ ps, x.Sound) (hstill : ∀ x ∈ ps, x.Still) (hs : lines s = pieceLines ps) :
    unwrapParameters s = pieceText ps := by
  rw [unwrapParameters, classifiedLines_eq h hs, pieceText]
  congr 1
  clear hs h
  induction ps with
  | nil => rfl
  | cons x ps ih =>
      have hps := ih fun y hy => hstill y (List.mem_cons_of_mem x hy)
      have hx := hstill x List.mem_cons_self
      rw [List.flatMap_cons, List.map_append, hps, pieceLines, pieceLines, List.flatMap_cons]
      cases x with
      | text line =>
          have hline : unwrapLine line = line := hx.2
          simp [Piece.classes, Piece.lines, hline]
      | code info body => simp [Piece.classes, Piece.lines, Function.comp_def]

end

end BookCompiler.Markdown
