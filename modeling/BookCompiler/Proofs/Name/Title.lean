import BookCompiler.Proofs.Command.Key
import Mathlib.Data.Bool.Basic
import Mathlib.Data.List.SplitBy

namespace BookCompiler.Name

open Text

def isSmall (c : Char) : Bool := c.isLower || c.isDigit

def IsSmallWord (w : List Char) : Prop := w ≠ [] ∧ ∀ c ∈ w, isSmall c = true

/-- Texts of the form `[a-z0-9]+(-[a-z0-9]+)*`. -/
inductive Hyphenated : List Char → Prop
  | word {w : List Char} (hw : IsSmallWord w) : Hyphenated w
  | hyphen {w s : List Char} (hw : IsSmallWord w) (hs : Hyphenated s) : Hyphenated (w ++ '-' :: s)

def goesOn (a b : Char) : Bool := a.isAlphanum && b.isAlphanum && !(isSmall a && b.isUpper)

/-- The longest stretches of letters and digits in which no capital follows a small letter or a digit. -/
def stretches (s : List Char) : List (List Char) := (s.splitBy goesOn).filter (·.all Char.isAlphanum)

section Characters

variable {c : Char}

theorem isUpper_iff : c.isUpper = true ↔ 'A'.val ≤ c.val ∧ c.val ≤ 'Z'.val := decide_eq_true_iff

theorem isLower_iff : c.isLower = true ↔ 'a'.val ≤ c.val ∧ c.val ≤ 'z'.val :=
  Bool.and_eq_true_iff.trans (and_congr decide_eq_true_iff decide_eq_true_iff)

theorem isAlphanum_eq (c : Char) : c.isAlphanum = (c.isUpper || c.isLower || c.isDigit) := rfl

theorem isAlphanum_of_isSmall (h : isSmall c = true) : c.isAlphanum = true := by
  rw [isSmall] at h
  rw [isAlphanum_eq, Bool.or_assoc, h, Bool.or_true]

theorem isUpper_of_isSmall (h : isSmall c = true) : c.isUpper = false := by
  rw [Bool.eq_false_iff, Ne, isUpper_iff]
  rw [isSmall, Bool.or_eq_true, isLower_iff] at h
  simp [Char.isDigit, UInt32.le_iff_toNat_le] at h ⊢
  omega

theorem toLower_of_isUpper_eq_false (h : c.isUpper = false) : c.toLower = c := by
  refine dif_neg fun hc => ?_
  rw [isUpper_iff.mpr hc] at h
  cases h

theorem toLower_of_isSmall (h : isSmall c = true) : c.toLower = c := toLower_of_isUpper_eq_false (isUpper_of_isSmall h)

theorem isLower_toLower (h : c.isUpper = true) : c.toLower.isLower = true := by
  have hc := isUpper_iff.mp h
  have hval : c.toLower.val = c.val + ('a'.val - 'A'.val) := congrArg Char.val (dif_pos hc)
  rw [isLower_iff, hval]
  simp [UInt32.le_iff_toNat_le] at hc ⊢
  omega

theorem isSmall_toLower (h : c.isAlphanum = true) : isSmall c.toLower = true := by
  cases hupper : c.isUpper with
  | true => rw [isSmall, isLower_toLower hupper, Bool.true_or]
  | false =>
      rw [toLower_of_isUpper_eq_false hupper, isSmall]
      rwa [isAlphanum_eq, hupper, Bool.false_or] at h

theorem isAlphanum_of_goesOn {d : Char} (h : goesOn c d = true) : c.isAlphanum = true ∧ d.isAlphanum = true := by
  simp only [goesOn, Bool.and_eq_true] at h
  exact h.1

theorem goesOn_of_isSmall {d : Char} (hc : isSmall c = true) (hd : isSmall d = true) : goesOn c d = true := by
  simp [goesOn, isAlphanum_of_isSmall hc, isAlphanum_of_isSmall hd, isUpper_of_isSmall hd]

end Characters

section Stretches

variable {c : Char} {a s w : List Char}

theorem stretches_append_cons (s : List Char) (h : ∀ d ∈ a.getLast?, goesOn d c = false) :
    stretches (a ++ c :: s) = stretches a ++ stretches (c :: s) := by
  rw [stretches, List.splitBy_append_cons s h, List.filter_append]
  rfl

theorem stretches_cons_separator (s : List Char) (hc : c.isAlphanum = false) : stretches (c :: s) = stretches s := by
  have hstop : ∀ d ∈ [c].getLast?, ∀ e ∈ s.head?, goesOn d e = false := by
    rintro d ⟨⟩ e -
    simp [goesOn, hc]
  rw [stretches, ← List.singleton_append, List.splitBy_append hstop, List.filter_append]
  simp [List.splitBy, List.splitBy.loop, hc, stretches]

theorem stretches_append_separator (a s : List Char) (hc : c.isAlphanum = false) :
    stretches (a ++ c :: s) = stretches a ++ stretches s := by
  rw [stretches_append_cons s fun d _ => by simp [goesOn, hc], stretches_cons_separator s hc]

theorem stretches_eq_singleton (hne : a ≠ []) (hchain : a.IsChain (goesOn · ·)) (hall : ∀ c ∈ a, c.isAlphanum = true) :
    stretches a = [a] := by
  rw [stretches, List.splitBy_of_isChain hne hchain]
  simpa using hall

theorem ne_nil_of_mem_stretches (h : w ∈ stretches s) : w ≠ [] :=
  List.ne_nil_of_mem_splitBy (List.mem_of_mem_filter h)

theorem isAlphanum_of_mem_stretches (h : w ∈ stretches s) : ∀ c ∈ w, c.isAlphanum = true :=
  List.all_eq_true.mp (List.mem_filter.mp h).2

theorem isAlphanum_of_isChain {d : Char} (h : (c :: d :: w).IsChain (goesOn · ·)) :
    ∀ e ∈ c :: d :: w, e.isAlphanum = true := by
  induction w generalizing c d with
  | nil =>
      obtain ⟨hc, hd⟩ := isAlphanum_of_goesOn (List.isChain_cons_cons.mp h).1
      exact List.forall_mem_cons.mpr ⟨hc, List.forall_mem_singleton.mpr hd⟩
  | cons e w ih =>
      obtain ⟨hcd, hrest⟩ := List.isChain_cons_cons.mp h
      exact List.forall_mem_cons.mpr ⟨(isAlphanum_of_goesOn hcd).1, ih hrest⟩

theorem filter_isAlphanum_of_isChain (h : w.IsChain (goesOn · ·)) :
    w.filter Char.isAlphanum = if w.all Char.isAlphanum then w else [] := by
  cases w with
  | nil => rfl
  | cons c w =>
      cases w with
      | nil => cases hc : c.isAlphanum <;> simp [hc]
      | cons d w =>
          have hall := isAlphanum_of_isChain h
          rw [if_pos (List.all_eq_true.mpr hall), List.filter_eq_self.mpr hall]

theorem flatten_filter_all {ws : List (List Char)} (h : ∀ w ∈ ws, w.IsChain (goesOn · ·)) :
    (ws.filter (·.all Char.isAlphanum)).flatten = ws.flatten.filter Char.isAlphanum := by
  induction ws with
  | nil => rfl
  | cons w ws ih =>
      rw [List.filter_cons, List.flatten_cons, List.filter_append, filter_isAlphanum_of_isChain (h w List.mem_cons_self),
        ← ih fun v hv => h v (List.mem_cons_of_mem w hv)]
      split <;> rfl

/-- The words keep every letter and digit of the text, in its order. -/
theorem flatten_stretches (s : List Char) : (stretches s).flatten = s.filter Char.isAlphanum := by
  rw [stretches, flatten_filter_all fun w => List.isChain_of_mem_splitBy, List.flatten_splitBy]

end Stretches

/-- What holds of the word being read, last character first, and of the flag beside it. -/
structure Reading (current : List Char) (afterSmall : Bool) : Prop where
  alphanum : ∀ c ∈ current, c.isAlphanum = true
  chain : current.reverse.IsChain (goesOn · ·)
  flag : afterSmall = current.head?.any isSmall

namespace Reading

variable {c : Char} {current : List Char} {afterSmall : Bool}

theorem nil : Reading [] false := ⟨List.forall_mem_nil _, List.isChain_nil, rfl⟩

theorem capital (hc : c.isAlphanum = true) (hupper : c.isUpper = true) : Reading [c] false := by
  refine ⟨List.forall_mem_singleton.mpr hc, List.isChain_singleton c, ?_⟩
  rw [List.head?_cons, Option.any_some, eq_comm, ← Bool.not_eq_true]
  intro hsmall
  rw [isUpper_of_isSmall hsmall] at hupper
  cases hupper

theorem goesOn_getLast (h : Reading current afterSmall) (hc : c.isAlphanum = true) {d : Char}
    (hd : d ∈ current.reverse.getLast?) : goesOn d c = !(c.isUpper && afterSmall && !current.isEmpty) := by
  rw [List.getLast?_reverse] at hd
  obtain ⟨rest, rfl⟩ := List.head?_eq_some_iff.mp hd
  simp [goesOn, hc, h.alphanum d List.mem_cons_self, h.flag, Bool.and_comm]

theorem cons (h : Reading current afterSmall) (hc : c.isAlphanum = true)
    (hbreak : ¬ (c.isUpper && afterSmall && !current.isEmpty) = true) : Reading (c :: current) (isSmall c) := by
  refine ⟨List.forall_mem_cons.mpr ⟨hc, h.alphanum⟩, ?_, rfl⟩
  rw [List.reverse_cons, List.isChain_append]
  refine ⟨h.chain, List.isChain_singleton c, ?_⟩
  rintro d hd e ⟨⟩
  rw [h.goesOn_getLast hc hd, Bool.eq_false_of_not_eq_true hbreak, Bool.not_false]

theorem stretches_eq (h : Reading current afterSmall) :
    stretches current.reverse = if current.isEmpty then [] else [current.reverse] := by
  cases current with
  | nil => rfl
  | cons c rest => exact stretches_eq_singleton (by simp) h.chain fun d hd => h.alphanum d (List.mem_reverse.mp hd)

end Reading

theorem wordsFrom_eq_stretches {current : List Char} {afterSmall : Bool} (s : List Char) (h : Reading current afterSmall) :
    wordsFrom current afterSmall s = stretches (current.reverse ++ s) := by
  induction s generalizing current afterSmall with
  | nil => rw [wordsFrom, List.append_nil, h.stretches_eq]
  | cons c s ih =>
      rw [wordsFrom]
      split
      · rename_i hc
        split
        · rename_i hbreak
          have hstop : ∀ d ∈ current.reverse.getLast?, goesOn d c = false := fun d hd => by
            rw [h.goesOn_getLast hc hd, hbreak, Bool.not_true]
          simp only [Bool.and_eq_true, Bool.not_eq_true'] at hbreak
          rw [stretches_append_cons s hstop, h.stretches_eq, hbreak.2, ih (.capital hc hbreak.1.1)]
          rfl
        · rename_i hbreak
          exact (ih (h.cons hc hbreak)).trans (by rw [List.reverse_cons, List.append_assoc, List.singleton_append])
      · rename_i hc
        rw [stretches_append_separator _ _ (Bool.eq_false_of_not_eq_true hc), h.stretches_eq, ih .nil]
        split <;> rfl

theorem splitWords_eq_stretches (s : List Char) : splitWords s = stretches (foldAccents s) :=
  wordsFrom_eq_stretches _ .nil

section Hyphens

variable {s w : List Char} {ws : List (List Char)}

theorem IsSmallWord.stretches_eq (h : IsSmallWord w) : stretches w = [w] := by
  have hpairs : w.Pairwise (goesOn · ·) :=
    List.pairwise_of_forall_mem_list fun c hc d hd => goesOn_of_isSmall (h.2 c hc) (h.2 d hd)
  exact stretches_eq_singleton h.1 hpairs.isChain fun c hc => isAlphanum_of_isSmall (h.2 c hc)

theorem hyphenated_iff : Hyphenated s ↔ ∃ ws, ws ≠ [] ∧ (∀ w ∈ ws, IsSmallWord w) ∧ List.intercalate ['-'] ws = s := by
  constructor
  · intro h
    induction h with
    | @word w hw => exact ⟨[w], List.cons_ne_nil w [], List.forall_mem_singleton.mpr hw, List.intercalate_singleton⟩
    | @hyphen w s hw _ ih =>
        obtain ⟨ws, hne, hws, rfl⟩ := ih
        exact ⟨w :: ws, List.cons_ne_nil w ws, List.forall_mem_cons.mpr ⟨hw, hws⟩, intercalate_cons w hne⟩
  · rintro ⟨ws, hne, hws, rfl⟩
    induction ws with
    | nil => exact absurd rfl hne
    | cons w ws ih =>
        obtain ⟨hw, hws⟩ := List.forall_mem_cons.mp hws
        by_cases h : ws = []
        · rw [h, List.intercalate_singleton]
          exact .word hw
        · rw [intercalate_cons w h]
          exact .hyphen hw (ih h hws)

theorem stretches_intercalate (h : ∀ w ∈ ws, IsSmallWord w) : stretches (List.intercalate ['-'] ws) = ws := by
  induction ws with
  | nil => rfl
  | cons w ws ih =>
      obtain ⟨hw, hws⟩ := List.forall_mem_cons.mp h
      by_cases h : ws = []
      · rw [h, List.intercalate_singleton, hw.stretches_eq]
      · rw [intercalate_cons w h, stretches_append_separator _ _ rfl, hw.stretches_eq, ih hws, List.singleton_append]

namespace Hyphenated

theorem isSmall_or_eq (h : Hyphenated s) : ∀ c ∈ s, isSmall c = true ∨ c = '-' := by
  induction h with
  | word hw => exact fun c hc => Or.inl (hw.2 c hc)
  | hyphen hw _ ih =>
      rw [List.forall_mem_append, List.forall_mem_cons]
      exact ⟨fun c hc => Or.inl (hw.2 c hc), Or.inr rfl, ih⟩

theorem ne_nil (h : Hyphenated s) : s ≠ [] := by
  cases h with
  | word hw => exact hw.1
  | hyphen hw hs => simp

theorem foldAccents_eq (h : Hyphenated s) : foldAccents s = s := by
  have hself : ∀ c ∈ s, foldAccent c = [c] := by
    intro c hc
    rw [foldAccent, if_pos]
    rcases h.isSmall_or_eq c hc with hsmall | rfl
    · have := code_of_isAlphanum (isAlphanum_of_isSmall hsmall)
      omega
    · decide
  rw [foldAccents, List.flatMap_congr hself, List.flatMap_singleton']

theorem filter_eq (h : Hyphenated s) : s.filter (· ≠ '-') = (stretches s).flatten := by
  rw [flatten_stretches]
  apply List.filter_congr
  intro c hc
  rcases h.isSmall_or_eq c hc with hsmall | rfl
  · rw [isAlphanum_of_isSmall hsmall, decide_eq_true_iff]
    rintro rfl
    cases hsmall
  · rfl

end Hyphenated

end Hyphens

section Titles

variable {title name : String} {w : List Char}

/-- The letters and digits of a title in small letters, once the accents are taken off. -/
def spelling (title : String) : List Char := ((removeAccents title).toList.filter Char.isAlphanum).map Char.toLower

def smallWords (title : String) : List (List Char) :=
  (stretches (removeAccents title).toList).map (·.map Char.toLower)

theorem isSmallWord_of_mem_smallWords (h : w ∈ smallWords title) : IsSmallWord w := by
  obtain ⟨v, hv, rfl⟩ := List.mem_map.mp h
  refine ⟨by simpa using ne_nil_of_mem_stretches hv, fun c hc => ?_⟩
  obtain ⟨d, hd, rfl⟩ := List.mem_map.mp hc
  exact isSmall_toLower (isAlphanum_of_mem_stretches hv d hd)

theorem flatten_smallWords (title : String) : (smallWords title).flatten = spelling title := by
  rw [smallWords, ← List.map_flatten, flatten_stretches, spelling]

theorem smallWords_eq_nil_iff : smallWords title = [] ↔ spelling title = [] := by
  rw [← flatten_smallWords]
  constructor
  · intro h
    rw [h, List.flatten_nil]
  · intro h
    apply List.eq_nil_iff_forall_not_mem.mpr
    exact fun w hw => (isSmallWord_of_mem_smallWords hw).1 (List.flatten_eq_nil_iff.mp h w hw)

theorem toList_kebab (title : String) : (kebab title).toList = List.intercalate ['-'] (smallWords title) := by
  rw [kebab, String.toList_ofList, kebabChars, splitWords_eq_stretches, smallWords, removeAccents, String.toList_ofList]

theorem hyphenated_kebab (h : spelling title ≠ []) : Hyphenated (kebab title).toList :=
  hyphenated_iff.mpr ⟨smallWords title, mt smallWords_eq_nil_iff.mp h, fun _ => isSmallWord_of_mem_smallWords,
    (toList_kebab title).symm⟩

theorem ofTitle_eq (title : String) : ofTitle title = if spelling title = [] then "untitled" else kebab title := by
  have hempty : (kebab title).isEmpty = true ↔ spelling title = [] := by
    rw [String.isEmpty_iff, ← String.toList_eq_nil_iff]
    constructor
    · intro h
      by_contra hne
      exact (hyphenated_kebab hne).ne_nil h
    · intro h
      rw [toList_kebab, smallWords_eq_nil_iff.mpr h]
      rfl
  rw [ofTitle]
  simp only [hempty]

theorem hyphenated_ofTitle (title : String) : Hyphenated (ofTitle title).toList := by
  rw [ofTitle_eq]
  rcases eq_or_ne (spelling title) [] with h | h
  · rw [if_pos h]
    exact .word ⟨by decide, List.all_eq_true.mp (by decide)⟩
  · rw [if_neg h]
    exact hyphenated_kebab h

theorem ofTitle_of_hyphenated (h : Hyphenated name.toList) : ofTitle name = name := by
  obtain ⟨ws, hne, hws, hname⟩ := hyphenated_iff.mp h
  have hlower : ∀ w ∈ ws, w.map Char.toLower = w := fun w hw =>
    (List.map_congr_left fun c hc => toLower_of_isSmall ((hws w hw).2 c hc)).trans (List.map_id w)
  have hwords : smallWords name = ws := by
    rw [smallWords, removeAccents, String.toList_ofList, h.foldAccents_eq, ← hname, stretches_intercalate hws]
    exact (List.map_congr_left hlower).trans (List.map_id ws)
  have hspelled : spelling name ≠ [] := by
    rwa [ne_eq, ← smallWords_eq_nil_iff, hwords]
  rw [ofTitle_eq, if_neg hspelled, ← String.toList_inj, toList_kebab, hwords, hname]

/-- A title gives a name of words of small letters and digits that are joined by hyphens, and such a name gives itself.
Without the hyphens it is what the title spells, if it spells anything, and the hyphens stand between the title's
words. -/
theorem ofTitle_normal (title : String) :
    ofTitle title ≠ "" ∧ Hyphenated (ofTitle title).toList ∧ ofTitle (ofTitle title) = ofTitle title ∧
      (spelling title = [] → ofTitle title = "untitled") ∧
      (spelling title ≠ [] → (ofTitle title).toList.filter (· ≠ '-') = spelling title ∧
        (ofTitle title).toList.splitOn '-' = smallWords title) := by
  have hform := hyphenated_ofTitle title
  refine ⟨fun h => hform.ne_nil (by rw [h]; rfl), hform, ofTitle_of_hyphenated hform, fun h => ?_, fun h => ?_⟩
  · rw [ofTitle_eq, if_pos h]
  · have hwords : ∀ w ∈ smallWords title, IsSmallWord w := fun _ => isSmallWord_of_mem_smallWords
    have hname : (ofTitle title).toList = List.intercalate ['-'] (smallWords title) := by
      rw [ofTitle_eq, if_neg h, toList_kebab]
    constructor
    · rw [hform.filter_eq, hname, stretches_intercalate hwords, flatten_smallWords]
    · rw [hname]
      apply List.splitOn_intercalate '-' _ (mt smallWords_eq_nil_iff.mp h)
      intro w hw hmem
      cases (hwords w hw).2 _ hmem

theorem ofTitle_normal_street :
    (spelling "🎯" = [] ∧ ofTitle "🎯" = "untitled") ∧ spelling "Čti straßeB2B!" = "ctistrasseb2b".toList ∧
      (ofTitle "Čti straßeB2B!").toList.filter (· ≠ '-') = "ctistrasseb2b".toList ∧
      (ofTitle "Čti straßeB2B!").toList.splitOn '-' = ["cti".toList, "strasse".toList, "b2".toList, "b".toList] := by
  have hnone : spelling "🎯" = [] := by decide
  have hspelling : spelling "Čti straßeB2B!" = "ctistrasseb2b".toList := by decide
  have hwords : smallWords "Čti straßeB2B!" = ["cti".toList, "strasse".toList, "b2".toList, "b".toList] := by decide
  obtain ⟨-, -, -, huntitled, -⟩ := ofTitle_normal "🎯"
  obtain ⟨-, -, -, -, hspelled⟩ := ofTitle_normal "Čti straßeB2B!"
  rw [hspelling, hwords] at hspelled
  exact ⟨⟨hnone, huntitled hnone⟩, hspelling, hspelled (by decide)⟩

end Titles

end BookCompiler.Name
