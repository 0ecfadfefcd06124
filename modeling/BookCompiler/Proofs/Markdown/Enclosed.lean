import BookCompiler.Proofs.Markdown.Opening
import BookCompiler.Proofs.Text.Returns

namespace BookCompiler.Markdown

open Text

def fenceAfter (fence : Option Fence) (ls : List (List Char)) : Option Fence :=
  ls.foldl (fun fence line => (classify fence line).fenceAfter fence) fence

def ScanState.after (state : ScanState) (ls : List (List Char)) : ScanState :=
  ls.foldl (fun state line => (state.step line).1) state

section Classes

theorem classifyFrom_append (fence : Option Fence) (ls ms : List (List Char)) :
    classifyFrom fence (ls ++ ms) = classifyFrom fence ls ++ classifyFrom (fenceAfter fence ls) ms := by
  induction ls generalizing fence with
  | nil => rfl
  | cons l ls ih => exact congrArg ((classify fence l, l) :: ·) (ih _)

variable {f : Fence} {b : List (List Char)}

theorem classifyFrom_inside (post : List (List Char)) (h : ∀ line ∈ b, f.isClosedBy line = false) :
    classifyFrom (some f) (b ++ post) = b.map (fun line => (.inside, line)) ++ classifyFrom (some f) post := by
  induction b with
  | nil => rfl
  | cons line b ih =>
      obtain ⟨hline, hb⟩ := List.forall_mem_cons.mp h
      have hclass : classify (some f) line = .inside := by simp [classify, hline]
      rw [List.cons_append, classifyFrom, hclass]
      exact congrArg _ (ih hb)

theorem takeWhile_classifyFrom (f : Fence) (ls : List (List Char)) :
    ((classifyFrom (some f) ls).takeWhile fun q => q.1 = .inside).map Prod.snd =
      ls.takeWhile fun line => !f.isClosedBy line := by
  induction ls with
  | nil => rfl
  | cons line ls ih =>
      cases hline : f.isClosedBy line with
      | true => simp [classifyFrom, classify, hline]
      | false => simpa [classifyFrom, classify, hline, LineClass.fenceAfter] using ih

theorem codeBlocksIn_append {xs ys : List (LineClass × List Char)} (h : ∀ q ∈ ys.head?, q.1 ≠ .inside) :
    codeBlocksIn (xs ++ ys) = codeBlocksIn xs ++ codeBlocksIn ys := by
  have hstop : ys.takeWhile (fun q => q.1 = .inside) = [] := by
    cases ys with
    | nil => rfl
    | cons q ys => exact List.takeWhile_cons_of_neg (by simpa using h q rfl)
  have htake (zs : List (LineClass × List Char)) :
      (zs ++ ys).takeWhile (fun q => q.1 = .inside) = zs.takeWhile fun q => q.1 = .inside := by
    rw [List.takeWhile_append, hstop, List.append_nil]
    split
    · rename_i hall
      exact ((List.takeWhile_prefix _).eq_of_length hall).symm
    · rfl
  induction xs with
  | nil => rfl
  | cons x xs ih =>
      obtain ⟨c, line⟩ := x
      cases c with
      | opens f =>
          rw [List.cons_append, codeBlocksIn, codeBlocksIn, ih]
          exact congrArg (fun content => CodeBlock.mk _ (String.ofList (joinLines (content.map Prod.snd))) :: _)
            (htake xs)
      | closes | inside | outside => simpa [codeBlocksIn] using ih

variable {s o : List Char} {pre post : List (List Char)}

theorem classifyFrom_enclosed (post : List (List Char)) (hpre : fenceAfter none pre = none) (ho : Fence.open? o = some f)
    (hb : ∀ line ∈ b, f.isClosedBy line = false) :
    classifyFrom none (pre ++ o :: (b ++ post)) = classifyFrom none pre ++
      (.opens f, o) :: (b.map (fun line => (.inside, line)) ++ classifyFrom (some f) post) := by
  have hclass : classify none o = .opens f := by rw [classify, ho]
  rw [classifyFrom_append, hpre, classifyFrom, hclass, ← classifyFrom_inside post hb]
  rfl

theorem outsideLines_enclosed (hs : lines s = pre ++ o :: (b ++ post)) (hpre : fenceAfter none pre = none)
    (ho : Fence.open? o = some f) (hb : ∀ line ∈ b, f.isClosedBy line = false) :
    outsideLines s = (classifyFrom none pre ++ classifyFrom (some f) post).filterMap fun (c, line) =>
      if c = .outside then some line else none := by
  rw [outsideLines, classifiedLines, hs, classifyFrom_enclosed post hpre ho hb]
  simp [List.filterMap_map]

/-- A block holds the lines behind its fence up to the one that closes it. -/
theorem codeBlocksIn_enclosed (post : List (List Char)) (hpre : fenceAfter none pre = none) (ho : Fence.open? o = some f)
    (hb : ∀ line ∈ b, f.isClosedBy line = false) :
    codeBlocksIn (classifyFrom none (pre ++ o :: (b ++ post))) = codeBlocksIn (classifyFrom none pre) ++
      ⟨blockLanguage f o, String.ofList (joinLines (b ++ post.takeWhile fun line => !f.isClosedBy line))⟩ ::
        codeBlocksIn (classifyFrom (some f) post) := by
  have hcontent : ((b.map (fun line => (LineClass.inside, line)) ++ classifyFrom (some f) post).takeWhile
      fun q => q.1 = .inside).map Prod.snd = b ++ post.takeWhile fun line => !f.isClosedBy line := by
    rw [List.takeWhile_append_of_pos (by simp), List.map_append, takeWhile_classifyFrom, List.map_map]
    simp [Function.comp_def]
  rw [classifyFrom_enclosed post hpre ho hb, codeBlocksIn_append (by simp), codeBlocksIn, codeBlocksIn_body]
  exact congrArg (fun content => _ ++ CodeBlock.mk _ (String.ofList (joinLines content)) :: _) hcontent

theorem codeBlocks_enclosed (hs : lines s = pre ++ o :: (b ++ post)) (hpre : fenceAfter none pre = none)
    (ho : Fence.open? o = some f) (hb : ∀ line ∈ b, f.isClosedBy line = false) :
    codeBlocks s = codeBlocksIn (classifyFrom none pre) ++
      ⟨blockLanguage f o, String.ofList (joinLines (b ++ post.takeWhile fun line => !f.isClosedBy line))⟩ ::
        codeBlocksIn (classifyFrom (some f) post) := by
  rw [codeBlocks, classifiedLines, hs, codeBlocksIn_enclosed post hpre ho hb]

end Classes

section Groups

def groupsFrom (state : ScanState) (ls : List (List Char)) : List (List (List Char)) :=
  (cutAtHeadings state ls).1 :: (cutAtHeadings state ls).2

theorem splitSections_eq (s : List Char) : splitSections s = (groupsFrom .markdown (lines s)).filterMap sectionText? := rfl

/-- Some lines settle all groups that end in them, and the beginning of the one that goes on behind them. -/
theorem groupsFrom_append (state : ScanState) (ls : List (List Char)) :
    ∃ before above, before.flatten ++ above = ls ∧ ∀ rest, groupsFrom state (ls ++ rest) =
      before ++ (above ++ (cutAtHeadings (state.after ls) rest).1) :: (cutAtHeadings (state.after ls) rest).2 := by
  induction ls generalizing state with
  | nil => exact ⟨[], [], rfl, fun rest => rfl⟩
  | cons line ls ih =>
      obtain ⟨before, above, hall, hgroups⟩ := ih (state.step line).1
      have hcut (rest : List (List Char)) : groupsFrom state (line :: (ls ++ rest)) =
          if (state.step line).2 then [] :: (groupsFrom (state.step line).1 (ls ++ rest)).modifyHead (line :: ·)
          else (groupsFrom (state.step line).1 (ls ++ rest)).modifyHead (line :: ·) := by
        rw [groupsFrom, cutAtHeadings_cons]
        split <;> rfl
      have hfirst : ∃ before' above', before'.flatten ++ above' = line :: ls ∧
          ∀ rest, (groupsFrom (state.step line).1 (ls ++ rest)).modifyHead (line :: ·) =
            before' ++ (above' ++ (cutAtHeadings (state.after (line :: ls)) rest).1) ::
              (cutAtHeadings (state.after (line :: ls)) rest).2 := by
        cases before with
        | nil =>
            refine ⟨[], line :: above, congrArg (line :: ·) hall, fun rest => ?_⟩
            rw [hgroups]
            rfl
        | cons g before =>
            refine ⟨(line :: g) :: before, above, congrArg (line :: ·) hall, fun rest => ?_⟩
            rw [hgroups]
            rfl
      obtain ⟨before', above', hall', hgroups'⟩ := hfirst
      cases hline : (state.step line).2 with
      | true =>
          refine ⟨[] :: before', above', hall', fun rest => ?_⟩
          rw [List.cons_append, hcut, hline, if_pos rfl, hgroups', List.cons_append]
      | false =>
          refine ⟨before', above', hall', fun rest => ?_⟩
          rw [List.cons_append, hcut, hline, if_neg Bool.false_ne_true, hgroups']

theorem cutAtHeadings_inside {f : Fence} {b : List (List Char)} (post : List (List Char))
    (h : ∀ line ∈ b, f.isClosedBy line = false) :
    cutAtHeadings (.code f) (b ++ post) =
      (b ++ (cutAtHeadings (.code f) post).1, (cutAtHeadings (.code f) post).2) := by
  induction b with
  | nil => rfl
  | cons line b ih =>
      obtain ⟨hline, hb⟩ := List.forall_mem_cons.mp h
      have hstep : ScanState.step (.code f) line = (.code f, false) := by simp [ScanState.step, hline]
      rw [List.cons_append, cutAtHeadings_cons, hstep, ih hb]
      rfl

/-- A code block lies in one group, which begins above it and ends below it; its inside moves no heading. -/
theorem groupsFrom_enclosed {pre : List (List Char)} {o : List Char} {f : Fence}
    (hpre : ScanState.markdown.after pre = .markdown) (ho : Fence.open? o = some f) (post : List (List Char)) :
    ∃ before above below after, above <:+ pre ∧ below <+: post ∧ ∀ b, (∀ line ∈ b, f.isClosedBy line = false) →
      groupsFrom .markdown (pre ++ o :: (b ++ post)) = before ++ (above ++ o :: (b ++ below)) :: after := by
  obtain ⟨before, above, hall, hgroups⟩ := groupsFrom_append .markdown pre
  have hstep : ScanState.markdown.step o = (.code f, false) := by simp [ScanState.step, ho]
  refine ⟨before, above, (cutAtHeadings (.code f) post).1, (cutAtHeadings (.code f) post).2, ⟨_, hall⟩,
    ⟨_, cutAtHeadings_flatten _ post⟩, fun b hb => ?_⟩
  rw [hgroups, hpre, cutAtHeadings_cons, hstep, cutAtHeadings_inside post hb]
  rfl

theorem exists_marker_of_open? {o : List Char} {f : Fence} (h : Fence.open? o = some f) :
    ∃ c u, trim o = c :: u ∧ c ≠ '#' := by
  rw [← open?_trim, Fence.open?, trimStart_eq_self (trim_trimmed o).1] at h
  cases htrim : trim o with
  | nil =>
      rw [htrim] at h
      cases h
  | cons c u =>
      refine ⟨c, u, rfl, ?_⟩
      rintro rfl
      rw [htrim] at h
      cases h

def firstLine (t : List Char) : Option (List Char) := (lines t).head?

theorem firstLine_untitled (s : List Char) :
    firstLine ("# ".toList ++ untitled ++ ['\n', '\n'] ++ s) = some ("# ".toList ++ untitled) := by
  rw [firstLine, List.append_assoc, List.cons_append, lines_append _ (by decide) (by decide), List.head?_cons]

theorem sectionText?_opener {o : List Char} {f : Fence} (ho : Fence.open? o = some f) {above : List (List Char)}
    (habove : ∀ line ∈ above, '\n' ∉ line) :
    ∃ first, ∀ rest, ∃ t, sectionText? (above ++ o :: rest) = some t ∧ firstLine t = first := by
  induction above with
  | nil =>
      obtain ⟨c, u, hc, hsign⟩ := exists_marker_of_open? ho
      refine ⟨some ("# ".toList ++ untitled), fun rest => ?_⟩
      obtain ⟨v, hv⟩ := trim_isPrefix_joinLines o rest
      rw [hc, List.cons_append] at hv
      refine ⟨_, ?_, firstLine_untitled (c :: (u ++ v))⟩
      rw [List.nil_append, sectionText?, ← hv]
      exact if_neg hsign
  | cons line above ih =>
      obtain ⟨hline, habove⟩ := List.forall_mem_cons.mp habove
      obtain ⟨first, hfirst⟩ := ih habove
      by_cases hblank : trim line = []
      · refine ⟨first, fun rest => ?_⟩
        obtain ⟨t, ht, hlead⟩ := hfirst rest
        refine ⟨t, ?_, hlead⟩
        rw [List.cons_append, sectionText?, trim_joinLines_cons_blank _ hblank]
        exact ht
      · have htext (rest : List (List Char)) : trim (joinLines (line :: (above ++ o :: rest))) =
            trimStart line ++ '\n' :: trimEnd (joinLines (above ++ o :: rest)) := by
          rw [joinLines_cons line (by simp)]
          refine trim_append_feed hblank fun hrest => ?_
          obtain ⟨t, ht, -⟩ := hfirst rest
          rw [sectionText?, hrest] at ht
          cases ht
        have hstart : '\n' ∉ trimStart line := fun hmem => hline ((List.dropWhile_suffix _).subset hmem)
        cases hlead : trimStart line with
        | nil =>
            rw [trim, hlead] at hblank
            exact absurd rfl hblank
        | cons c u =>
            rw [hlead] at htext hstart
            by_cases hc : c = '#'
            · refine ⟨firstLine (c :: u ++ ['\n']), fun rest => ?_⟩
              refine ⟨_, ?_, head?_lines_append (trimEnd (joinLines (above ++ o :: rest))) _ hstart⟩
              rw [List.cons_append, sectionText?, htext, List.cons_append]
              exact if_pos hc
            · refine ⟨some ("# ".toList ++ untitled), fun rest => ?_⟩
              refine ⟨_, ?_, firstLine_untitled (c :: u ++ '\n' :: trimEnd (joinLines (above ++ o :: rest)))⟩
              rw [List.cons_append, sectionText?, htext, List.cons_append]
              exact if_neg hc

end Groups

/-- The inside of a code block is seen nowhere but in the content of the block. Of two texts that differ only in lines
that do not close it, the sections begin alike and are the same but for the one that has the block in it; and if the
texts stand below a heading, all that is read from them is the same but for the content of the block. -/
theorem code_enclosed {pre b b' post : List (List Char)} {o s s' : List Char} {f : Fence} (ho : Fence.open? o = some f)
    (hb : ∀ line ∈ b, f.isClosedBy line = false) (hb' : ∀ line ∈ b', f.isClosedBy line = false)
    (hs : lines s = pre ++ o :: (b ++ post)) (hs' : lines s' = pre ++ o :: (b' ++ post)) :
    (ScanState.markdown.after pre = .markdown →
      (splitSections s).map firstLine = (splitSections s').map firstLine ∧
      ∃ before above below after t t', above <:+ pre ∧ below <+: post ∧
        sectionText? (above ++ o :: (b ++ below)) = some t ∧ sectionText? (above ++ o :: (b' ++ below)) = some t' ∧
        splitSections s = before ++ t :: after ∧ splitSections s' = before ++ t' :: after) ∧
    (fenceAfter none pre = none →
      (Body.read s).prose = (Body.read s').prose ∧ (Body.read s).quotation = (Body.read s').quotation ∧
      (Body.read s).listItems = (Body.read s').listItems ∧ (Body.read s).result = (Body.read s').result ∧
      ∃ before after language, language = blockLanguage f o ∧
        (Body.read s).codeBlocks = before ++
          ⟨language, String.ofList (joinLines (b ++ post.takeWhile fun line => !f.isClosedBy line))⟩ :: after ∧
        (Body.read s').codeBlocks = before ++
          ⟨language, String.ofList (joinLines (b' ++ post.takeWhile fun line => !f.isClosedBy line))⟩ :: after) := by
  constructor
  · intro hpre
    obtain ⟨before, above, below, after, habove, hbelow, hgroups⟩ := groupsFrom_enclosed hpre ho post
    have hnot : ∀ line ∈ above, '\n' ∉ line := by
      intro line hline
      apply not_mem_of_mem_lines (s := s)
      rw [hs]
      exact List.mem_append_left _ (habove.subset hline)
    obtain ⟨first, hfirst⟩ := sectionText?_opener ho hnot
    obtain ⟨t, ht, hlead⟩ := hfirst (b ++ below)
    obtain ⟨t', ht', hlead'⟩ := hfirst (b' ++ below)
    have hsplit : splitSections s = before.filterMap sectionText? ++ t :: after.filterMap sectionText? := by
      rw [splitSections_eq, hs, hgroups b hb, List.filterMap_append, List.filterMap_cons_some ht]
    have hsplit' : splitSections s' = before.filterMap sectionText? ++ t' :: after.filterMap sectionText? := by
      rw [splitSections_eq, hs', hgroups b' hb', List.filterMap_append, List.filterMap_cons_some ht']
    refine ⟨?_, _, above, below, _, t, t', habove, hbelow, ht, ht', hsplit, hsplit'⟩
    rw [hsplit, hsplit', List.map_append, List.map_append, List.map_cons, List.map_cons, hlead, hlead']
  · intro hpre
    have hlines : outsideLines s = outsideLines s' := by
      rw [outsideLines_enclosed hs hpre ho hb, outsideLines_enclosed hs' hpre ho hb']
    have hplain : plainLines s = plainLines s' := by rw [plainLines, plainLines, hlines]
    refine ⟨?_, ?_, ?_, ?_, _, _, _, rfl, codeBlocks_enclosed hs hpre ho hb, codeBlocks_enclosed hs' hpre ho hb'⟩
    · simp only [Body.read, hplain]
    · simp only [Body.read, quotation?, hlines]
    · simp only [Body.read, listItems, hlines]
    · simp only [Body.read, hplain]

def guiseText (inside : String) : List Char := ("# T\n\n## A\n\n~~~js\n" ++ inside ++ "\n~~~\n\n-> \x7bx\x7d\n").toList

theorem code_enclosed_guiseText :
    (splitSections (guiseText "## B\n- JOKER \x7bj\x7d\n~~")).map firstLine =
        (splitSections (guiseText "> q\n```\n<!--\n-> \x7by\x7d")).map firstLine ∧
      (Body.read (guiseText "## B\n- JOKER \x7bj\x7d\n~~")).result =
        (Body.read (guiseText "> q\n```\n<!--\n-> \x7by\x7d")).result := by
  have ho : Fence.open? "~~~js".toList = some ⟨'~', 3⟩ := by decide
  have hs : lines (guiseText "## B\n- JOKER \x7bj\x7d\n~~") = ["# T".toList, [], "## A".toList, []] ++ "~~~js".toList ::
      (["## B".toList, "- JOKER \x7bj\x7d".toList, "~~".toList] ++ ["~~~".toList, [], "-> \x7bx\x7d".toList]) := by
    decide
  have hs' : lines (guiseText "> q\n```\n<!--\n-> \x7by\x7d") = ["# T".toList, [], "## A".toList, []] ++ "~~~js".toList ::
      (["> q".toList, "```".toList, "<!--".toList, "-> \x7by\x7d".toList] ++
        ["~~~".toList, [], "-> \x7bx\x7d".toList]) := by
    decide
  have h := code_enclosed ho (by decide) (by decide) hs hs'
  exact ⟨(h.1 (by decide)).1, (h.2 (by decide)).2.2.2.1⟩

end BookCompiler.Markdown
