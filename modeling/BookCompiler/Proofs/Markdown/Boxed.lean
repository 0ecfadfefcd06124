import BookCompiler.Proofs.Compile.Legible
import BookCompiler.Proofs.Markdown.Enclosed
import BookCompiler.Proofs.Markdown.Flattened

namespace BookCompiler.Markdown

open Text

/-- A line that consists of three backticks or more, white space around them apart. -/
def IsTickRun (line : List Char) : Prop := ∃ n, 3 ≤ n ∧ trim line = List.replicate n '\x60'

theorem isClosedBy_ticks_iff {line : List Char} : Fence.ticks.isClosedBy line = true ↔ IsTickRun line := by
  have hrun : Fence.ticks.isClosedBy line = true ↔ (∀ c ∈ trim line, c = '\x60') ∧ 3 ≤ (trim line).length := by
    simp only [Fence.isClosedBy, Bool.and_eq_true, List.all_eq_true, decide_eq_true_eq]
    rfl
  rw [hrun]
  constructor
  · rintro ⟨hall, hlength⟩
    exact ⟨_, hlength, List.eq_replicate_of_mem hall⟩
  · rintro ⟨n, hn, htrim⟩
    rw [htrim, List.length_replicate]
    exact ⟨fun c => List.eq_of_mem_replicate, hn⟩

instance (line : List Char) : Decidable (IsTickRun line) := decidable_of_iff _ isClosedBy_ticks_iff

theorem boxable_iff {content : List Char} (h : '\r' ∉ content) :
    Boxable content ↔ ∀ line ∈ lines content, ¬ IsTickRun line := by
  have hboxable : Boxable content ↔ ∀ line ∈ content.splitOn '\n', ¬ IsTickRun line := by
    refine forall₂_congr fun line hline => ?_
    rw [← isClosedBy_ticks_iff, Bool.not_eq_true]
    exact and_iff_right (isLine_of_mem_splitOn h hline)
  have hempty : ¬ IsTickRun [] := by decide
  rw [hboxable]
  rcases splitOn_eq_lines h with hsplit | hsplit
  · rw [hsplit]
  · rw [hsplit, List.forall_mem_append, List.forall_mem_singleton, and_iff_left hempty]

def boxLines (content : List Char) : List (List Char) := (content.splitOn '\n').map dropReturn ++ [tickChars]

section Block

variable {info : List Char}

theorem lines_pieceText_codeBlock (hinfo : IsLine (tickChars ++ info)) (content : List Char) :
    lines (pieceText (codeBlock info content)) = (tickChars ++ info) :: boxLines content := by
  have hfirm : EndFirmly ((tickChars ++ info) :: (content.splitOn '\n' ++ [tickChars])) :=
    ((endFirmly_singleton (by decide) (by decide)).append (content.splitOn '\n')).cons
  have hnot : ∀ line ∈ (tickChars ++ info) :: (content.splitOn '\n' ++ [tickChars]), '\n' ∉ line := by
    simp only [List.forall_mem_cons, List.forall_mem_append]
    exact ⟨hinfo.1, fun _ => not_mem_of_mem_splitOn, by decide, List.forall_mem_nil _⟩
  have hticks : dropReturn tickChars = tickChars := by decide
  rw [pieceText, pieceLines_codeBlock, hfirm.lines_joinLines hnot, List.map_cons, List.map_append, List.map_singleton, hticks,
    dropReturn_eq_self hinfo.2, boxLines]

theorem codeBlocks_pieceText_codeBlock (hinfo : IsInfo info) (content : List Char) :
    codeBlocks (pieceText (codeBlock info content)) =
      ⟨blockLanguage .ticks (tickChars ++ info),
          String.ofList (joinLines ((boxLines content).takeWhile fun line => !Fence.ticks.isClosedBy line))⟩ ::
        codeBlocksIn (classifyFrom (some .ticks) (boxLines content)) := by
  have hlines : lines (pieceText (codeBlock info content)) = [] ++ (tickChars ++ info) :: ([] ++ boxLines content) :=
    lines_pieceText_codeBlock hinfo.1 content
  rw [codeBlocks_enclosed hlines rfl hinfo.2 (List.forall_mem_nil _)]
  rfl

theorem takeWhile_boxLines {content : List Char}
    (h : joinLines ((boxLines content).takeWhile fun line => !Fence.ticks.isClosedBy line) = content) :
    (boxLines content).takeWhile (fun line => !Fence.ticks.isClosedBy line) = content.splitOn '\n' := by
  have hne : (boxLines content).takeWhile (fun line => !Fence.ticks.isClosedBy line) ≠ [] := by
    intro hnil
    rw [hnil, joinLines_nil] at h
    subst h
    exact absurd hnil (by decide)
  have hnot : ∀ line ∈ boxLines content, '\n' ∉ line := by
    rw [boxLines, List.forall_mem_append, List.forall_mem_map]
    exact ⟨fun line hline => not_mem_dropReturn (not_mem_of_mem_splitOn hline), by decide⟩
  nth_rewrite 2 [← h]
  exact (List.splitOn_intercalate '\n' (fun line hline => hnot line ((List.takeWhile_prefix _).subset hline)) hne).symm

theorem codeBlocks_codeBlock_iff_boxable (hinfo : IsInfo info) (content : List Char) :
    codeBlocks (pieceText (codeBlock info content)) =
        [⟨blockLanguage .ticks (tickChars ++ info), String.ofList content⟩] ↔
      Boxable content := by
  constructor
  · intro h
    rw [codeBlocks_pieceText_codeBlock hinfo] at h
    have hcontent := String.ofList_injective (CodeBlock.mk.inj (List.cons.inj h).1).2
    have hread := takeWhile_boxLines hcontent
    have hlength : ((content.splitOn '\n').map dropReturn).length = (content.splitOn '\n').length := List.length_map _
    have hkept : (content.splitOn '\n').map dropReturn = content.splitOn '\n' := by
      have hprefix : content.splitOn '\n' <+: boxLines content := hread ▸ List.takeWhile_prefix _
      exact (List.prefix_of_prefix_length_le (List.prefix_append _ _) hprefix hlength.le).eq_of_length hlength
    intro line hline
    refine ⟨⟨not_mem_of_mem_splitOn hline, map_dropReturn_eq_self_iff.mp hkept line hline⟩, ?_⟩
    rw [← hread] at hline
    simpa using List.mem_takeWhile_imp hline
  · intro h
    have hblock := codeBlock_isBlock hinfo h
    have hlines : lines (pieceText (codeBlock info content)) = pieceLines (codeBlock info content) := by
      rw [lines_pieceText_codeBlock hinfo.1, boxLines, map_dropReturn_eq_self_iff.mpr fun line hline => (h line hline).1.2,
        pieceLines_codeBlock]
    rw [codeBlocks_eq hblock.sound hlines]
    simp [codeBlock, Piece.block?, joinLines_splitOn]

end Block

/-- A text without carriage returns that is written as a code block is read back from it, with the language, exactly if
no line of it consists of three backticks or more. -/
theorem codeBlocks_fenced_iff (language : Option Script.Language) {content : String} (h : '\r' ∉ content.toList) :
    codeBlocks (fenced (language.map Script.Language.name) content).toList =
        [⟨language.map Script.Language.name, content⟩] ↔
      ∀ line ∈ lines content.toList, ¬ IsTickRun line := by
  obtain ⟨hinfo, hlanguage⟩ := isInfo_language language
  have hiff := codeBlocks_codeBlock_iff_boxable hinfo content.toList
  rw [hlanguage, String.ofList_toList] at hiff
  rw [toList_fenced, hiff, boxable_iff h]

def hedgedText : String := "~~~\n```js\n``\n ``` x\n\n"

theorem codeBlocks_fenced_iff_hedgedText :
    codeBlocks (fenced (some "python") hedgedText).toList = [⟨some "python", hedgedText⟩] ∧
      codeBlocks (fenced none (hedgedText ++ " `````\t")).toList ≠ [⟨none, hedgedText ++ " `````\t"⟩] :=
  ⟨(codeBlocks_fenced_iff (some .python) (by decide)).mpr (by decide),
    fun h => absurd ((codeBlocks_fenced_iff none (by decide)).mp h) (by decide)⟩

end BookCompiler.Markdown
