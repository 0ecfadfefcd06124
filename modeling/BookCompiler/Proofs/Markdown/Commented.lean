import BookCompiler.Proofs.Markdown.Enclosed
import BookCompiler.Proofs.Markdown.Opening

namespace BookCompiler.Markdown

open Text

section Lines

theorem stripComments_hidden {line : List Char} (h : contains commentEnd line = false) :
    stripComments true 0 line = ([], true) := by
  induction line with
  | nil => rfl
  | cons c line ih =>
      rw [contains, Bool.or_eq_false_iff] at h
      rw [stripComments, if_neg (not_not_intro rfl), if_pos rfl, h.1, if_neg Bool.false_ne_true]
      exact ih h.2

theorem uncommentLine_hidden {line : List Char} (h : contains commentEnd line = false) :
    uncommentLine true line = (none, true) := by
  rw [uncommentLine, stripComments_hidden h]
  rfl

theorem uncommentLines_plain {xs : List (LineClass × List Char)} (rest : List (LineClass × List Char))
    (h : ∀ q ∈ xs, q.1 = .outside → contains commentStart q.2 = false) :
    uncommentLines false (xs ++ rest) = xs.map Prod.snd ++ uncommentLines false rest := by
  induction xs with
  | nil => rfl
  | cons q xs ih =>
      obtain ⟨c, line⟩ := q
      obtain ⟨hline, hxs⟩ := List.forall_mem_cons.mp h
      rw [List.cons_append, uncommentLines]
      split
      · rename_i hc
        have hkept : uncommentLine false line = (some line, false) := by simp [uncommentLine, hline hc]
        rw [hkept]
        exact congrArg (line :: ·) (ih hxs)
      · exact congrArg (line :: ·) (ih hxs)

theorem uncommentLines_classifyFrom {ls : List (List Char)} (fence : Option Fence) (rest : List (LineClass × List Char))
    (h : ∀ line ∈ ls, contains commentStart line = false) :
    uncommentLines false (classifyFrom fence ls ++ rest) = ls ++ uncommentLines false rest := by
  rw [uncommentLines_plain rest, map_snd_classifyFrom]
  intro q hq _
  apply h
  rw [← map_snd_classifyFrom fence ls]
  exact List.mem_map_of_mem hq

theorem uncommentLines_hidden {ls : List (List Char)} (rest : List (List Char))
    (hend : ∀ line ∈ ls, contains commentEnd line = false) (hopen : ∀ line ∈ ls, Fence.open? line = none) :
    uncommentLines true (classifyFrom none (ls ++ rest)) = uncommentLines true (classifyFrom none rest) := by
  induction ls with
  | nil => rfl
  | cons line ls ih =>
      obtain ⟨hline, hend⟩ := List.forall_mem_cons.mp hend
      obtain ⟨hquiet, hopen⟩ := List.forall_mem_cons.mp hopen
      have hclass : classify none line = .outside := by rw [classify, hquiet]
      rw [List.cons_append, classifyFrom, hclass, uncommentLines, if_pos rfl, uncommentLine_hidden hline]
      exact ih hend hopen

end Lines

section Comment

variable {pre body post : List (List Char)} {s t : List Char}

theorem removeComments_plain (hpre : ∀ line ∈ pre, contains commentStart line = false)
    (hopen : fenceAfter none pre = none) (ht : lines t = pre ++ post) :
    removeComments t = joinLines (pre ++ uncommentLines false (classifyFrom none post)) := by
  rw [removeComments, classifiedLines, ht, classifyFrom_append, hopen, uncommentLines_classifyFrom none _ hpre]

theorem removeComments_opened (hpre : ∀ line ∈ pre, contains commentStart line = false)
    (hopen : fenceAfter none pre = none) (hs : lines s = pre ++ commentStart :: post) :
    removeComments s = joinLines (pre ++ uncommentLines true (classifyFrom none post)) := by
  rw [removeComments_plain hpre hopen hs]
  rfl

theorem removeComments_hidden (hpre : ∀ line ∈ pre, contains commentStart line = false)
    (hopen : fenceAfter none pre = none) (hbody : ∀ line ∈ body, contains commentEnd line = false)
    (hquiet : ∀ line ∈ body, Fence.open? line = none) (hs : lines s = pre ++ commentStart :: (body ++ commentEnd :: post))
    (ht : lines t = pre ++ post) : removeComments s = removeComments t := by
  rw [removeComments_opened hpre hopen hs, uncommentLines_hidden _ hbody hquiet, removeComments_plain hpre hopen ht]
  rfl

/-- The first line of a comment that opens a code block stays, right behind what precedes the comment. -/
theorem removeComments_leaks {o : List Char} (hpre : ∀ line ∈ pre, contains commentStart line = false)
    (hopen : fenceAfter none pre = none) (hbody : ∀ line ∈ body, contains commentEnd line = false)
    (ho : body.find? (fun line => (Fence.open? line).isSome) = some o)
    (hs : lines s = pre ++ commentStart :: (body ++ commentEnd :: post)) :
    ∃ rest, removeComments s = joinLines (pre ++ o :: rest) := by
  obtain ⟨hsome, quiet, later, rfl, hquiet⟩ := List.find?_eq_some_iff_append.mp ho
  obtain ⟨f, hf⟩ := Option.isSome_iff_exists.mp hsome
  have hclass : classify none o = .opens f := by rw [classify, hf]
  obtain ⟨hhidden, -⟩ := List.forall_mem_append.mp hbody
  refine ⟨uncommentLines true (classifyFrom (some f) (later ++ commentEnd :: post)), ?_⟩
  rw [removeComments_opened hpre hopen hs, List.append_assoc,
    uncommentLines_hidden _ hhidden (by simpa using hquiet), List.cons_append, classifyFrom, hclass]
  rfl

end Comment

/-- A comment that has its first and its last line for itself goes with all that stands between them if no line of it
opens a code block. If one does, it stays and the text behind it is read as code. -/
theorem removeComments_commented {pre body : List (List Char)} (hlines : ∀ line ∈ pre ++ body, '\n' ∉ line)
    (hopen : fenceAfter none pre = none) (hpre : ∀ line ∈ pre, contains commentStart line = false)
    (hbody : ∀ line ∈ body, contains commentEnd line = false) :
    ((∀ post s t, lines s = pre ++ commentStart :: (body ++ commentEnd :: post) → lines t = pre ++ post →
        removeComments s = removeComments t) ↔ ∀ line ∈ body, Fence.open? line = none) ∧
    ∀ o ∈ body.find? (fun line => (Fence.open? line).isSome), ∀ post s,
      lines s = pre ++ commentStart :: (body ++ commentEnd :: post) →
        ∃ rest, removeComments s = joinLines (pre ++ o :: rest) := by
  have hleaks (o : List Char) (ho : o ∈ body.find? (fun line => (Fence.open? line).isSome))
      (post : List (List Char)) (s : List Char)
      (hs : lines s = pre ++ commentStart :: (body ++ commentEnd :: post)) :
      ∃ rest, removeComments s = joinLines (pre ++ o :: rest) := removeComments_leaks hpre hopen hbody ho hs
  refine ⟨⟨fun hall line hline => ?_, fun hquiet post s t => removeComments_hidden hpre hopen hbody hquiet⟩, hleaks⟩
  by_contra hne
  obtain ⟨o, ho⟩ : ∃ o, body.find? (fun line => (Fence.open? line).isSome) = some o := by
    rw [← Option.isSome_iff_exists, List.find?_isSome]
    exact ⟨line, hline, Option.isSome_iff_ne_none.mpr hne⟩
  obtain ⟨hnpre, hnbody⟩ := List.forall_mem_append.mp hlines
  have hshort : ∀ line ∈ pre ++ [], '\n' ∉ line := by simpa using hnpre
  have hlong : ∀ line ∈ pre ++ commentStart :: (body ++ [commentEnd]), '\n' ∉ line := by
    simp only [List.forall_mem_append, List.forall_mem_cons]
    exact ⟨hnpre, by decide, hnbody, by decide, List.forall_mem_nil _⟩
  obtain ⟨t, ht⟩ := exists_lines_eq hshort
  obtain ⟨s, hs⟩ := exists_lines_eq hlong
  obtain ⟨rest, hrest⟩ := hleaks o ho [] s hs
  have hsame := hall [] s t hs ht
  have hkept : removeComments t = joinLines pre := by
    rw [removeComments_plain hpre hopen ht]
    exact congrArg joinLines (List.append_nil pre)
  have hfilled : o ≠ [] := by
    rintro rfl
    exact absurd (List.find?_some ho) (by decide)
  rw [hrest, hkept] at hsame
  exact joinLines_append_ne pre rest hfilled hsame

theorem removeComments_commented_heading :
    removeComments "A\n<!--\n## B\n<!-- c\n-->\nD".toList = removeComments "A\nD".toList := by
  have hpre : ∀ line ∈ ["A".toList], contains commentStart line = false := by decide
  have hbody : ∀ line ∈ ["## B".toList, "<!-- c".toList], contains commentEnd line = false := by decide
  have h := removeComments_commented (by decide) (by decide) hpre hbody
  exact h.1.mpr (by decide) ["D".toList] _ _ (by decide) (by decide)

def hidingText : List Char := "A\n<!--\n```\nhidden\n-->\nB".toList

/-- The code block stays, the end of the comment is taken for code, and so is the text behind it. -/
theorem hidingText_leaks :
    lines hidingText = ["A".toList] ++ commentStart :: (["```".toList, "hidden".toList] ++ commentEnd :: ["B".toList]) ∧
      removeComments hidingText = "A\n```\nhidden\n-->\nB".toList ∧
      removeComments hidingText ≠ removeComments "A\nB".toList := by
  refine ⟨by decide, by decide, by decide⟩

end BookCompiler.Markdown
