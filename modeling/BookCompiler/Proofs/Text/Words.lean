import BookCompiler.Command.Line
import BookCompiler.Proofs.Text.Lines

namespace BookCompiler.Text

theorem split_eq_splitOnP (p : Char → Bool) (s : List Char) : split p s = s.splitOnP p := by
  induction s with
  | nil => rfl
  | cons c s ih =>
      rw [split, List.splitOnP_cons_eq_if_modifyHead, ih]
      split
      · rfl
      · obtain ⟨piece, pieces, h⟩ := List.exists_cons_of_ne_nil (List.splitOnP_ne_nil p s)
        rw [h, List.modifyHead_cons]

theorem words_append {c : Char} (a b : List Char) (h : isBlank c = true) :
    words (a ++ c :: b) = words a ++ words b := by
  simp only [words, split_eq_splitOnP]
  rw [List.splitOnP_append_cons a b h, List.filter_append]

/-- A text without white space is one word. -/
def IsWord (s : List Char) : Prop := s ≠ [] ∧ ∀ c ∈ s, isBlank c = false

instance (s : List Char) : Decidable (IsWord s) :=
  decidable_of_iff (s.isEmpty = false ∧ s.all (!isBlank ·) = true) (by simp [IsWord])

theorem words_of_isWord {s : List Char} (h : IsWord s) : words s = [s] := by
  simp only [words, split_eq_splitOnP]
  rw [List.splitOnP_eq_singleton h.2]
  simp [h.1]

theorem words_isWord_append {c : Char} {s : List Char} (t : List Char) (hs : IsWord s) (hc : isBlank c = true) :
    words (s ++ c :: t) = s :: words t := by
  rw [words_append s t hc, words_of_isWord hs, List.singleton_append]

theorem isWord_of_mem_words {s w : List Char} (h : w ∈ words s) : IsWord w := by
  rw [words, List.mem_filter, split_eq_splitOnP] at h
  exact ⟨by simpa using h.2, eq_false_of_mem_splitOnP h.1⟩

/-- The beginning of a text up to the first white space. -/
def firstWord (s : List Char) : List Char := s.takeWhile (!isBlank ·)

theorem firstWord_of_isWord {s : List Char} (h : IsWord s) : firstWord s = s := by
  rw [firstWord, List.takeWhile_eq_self_iff]
  simpa using h.2

theorem firstWord_isWord_append {s : List Char} (t : List Char) (h : IsWord s) : firstWord (s ++ ' ' :: t) = s := by
  rw [firstWord, List.takeWhile_append_of_pos (by simpa using h.2), List.takeWhile_cons_of_neg (by decide),
    List.append_nil]

theorem firstWord_isPrefix_append (s t : List Char) : firstWord s <+: firstWord (s ++ t) := by
  induction s with
  | nil => exact List.nil_prefix
  | cons c s ih =>
      cases hc : isBlank c with
      | true => simp [firstWord, hc]
      | false => simpa [firstWord, hc] using ih

theorem firstWord_append_subset (s t : List Char) : firstWord (s ++ t) ⊆ firstWord s ++ firstWord t := by
  induction s with
  | nil => exact List.Subset.refl _
  | cons c s ih =>
      cases hc : isBlank c with
      | true => simp [firstWord, hc]
      | false => simpa [firstWord, hc] using List.cons_subset_cons c ih

theorem firstWord_isWord {s : List Char} (h : Trimmed s) (hne : s ≠ []) : IsWord (firstWord s) := by
  obtain ⟨c, s, rfl⟩ := List.exists_cons_of_ne_nil hne
  have hc : isBlank c = false := h.1 c rfl
  refine ⟨by simp [firstWord, hc], fun d hd => ?_⟩
  simpa using List.all_eq_true.mp (List.all_takeWhile (p := (!isBlank ·))) d hd

theorem head?_words {s : List Char} (h : Trimmed s) (hne : s ≠ []) : (words s).head? = some (firstWord s) := by
  have hword := firstWord_isWord h hne
  have hsplit : firstWord s ++ s.dropWhile (!isBlank ·) = s := List.takeWhile_append_dropWhile
  have hnext := head?_dropWhile (!isBlank ·) s
  cases hdrop : s.dropWhile (!isBlank ·) with
  | nil =>
      rw [hdrop, List.append_nil] at hsplit
      rw [← hsplit, words_of_isWord hword, firstWord_of_isWord hword, List.head?_cons]
  | cons d rest =>
      rw [hdrop] at hsplit hnext
      have hd : isBlank d = true := by simpa using hnext d rfl
      have hwords : words s = firstWord s :: words rest := by
        nth_rewrite 1 [← hsplit]
        exact words_isWord_append rest hword hd
      rw [hwords, List.head?_cons]

theorem IsWord.trimmed {s : List Char} (h : IsWord s) : Trimmed s :=
  ⟨fun c hc => h.2 c (List.mem_of_mem_head? hc), fun c hc => h.2 c (List.mem_of_mem_getLast? hc)⟩

end BookCompiler.Text

namespace BookCompiler

open Text

theorem dropWhile_isWord_append {s : List Char} (t : List Char) (hs : IsWord s) :
    (trimStart (s ++ ' ' :: t)).dropWhile (!isBlank ·) = ' ' :: t := by
  have hstart : trimStart (s ++ ' ' :: t) = s ++ ' ' :: t := by
    apply trimStart_eq_self
    intro c hc
    rw [List.head?_append_of_ne_nil _ hs.1] at hc
    exact hs.trimmed.1 c hc
  rw [hstart, List.dropWhile_append_of_pos (by simpa using hs.2)]
  rfl

theorem afterWords_isWord_append (n : Nat) {s : List Char} (t : List Char) (hs : IsWord s) :
    afterWords (n + 1) (s ++ ' ' :: t) = afterWords n (' ' :: t) := by
  rw [afterWords, dropWhile_isWord_append t hs]

theorem afterWords_cons_blank (n : Nat) {c : Char} (t : List Char) (hc : isBlank c = true) :
    afterWords n (c :: t) = afterWords n t := by
  cases n with
  | zero => exact trimStart_cons_blank t hc
  | succ n => rw [afterWords, afterWords, trimStart_cons_blank t hc]

end BookCompiler
