import BookCompiler.Proofs.Script.Balanced
import Mathlib.Algebra.Ring.Int.Defs

namespace BookCompiler.Script

namespace Token

def weight : Token → Int
  | opener _ => 1
  | closer _ => -1
  | _ => 0

def mirrored : Token → Token
  | opener shape => closer shape
  | closer shape => opener shape
  | t => t

theorem weight_mirrored (t : Token) : t.mirrored.weight = -t.weight := by
  cases t <;> rfl

end Token

/-- Looking for an opener backwards is looking for a closer with the brackets turned round. -/
theorem openOffset_eq_closeOffset (depth : Nat) (s : List Token) :
    openOffset depth s = closeOffset depth (s.map Token.mirrored) := by
  induction s generalizing depth with
  | nil => rfl
  | cons t s ih =>
      rw [openOffset_cons, List.map_cons, closeOffset, ih]
      cases t <;> rfl

/-- How many more brackets open than close before an index. -/
def level (tokens : List Token) (i : Nat) : Int := ((tokens.take i).map Token.weight).sum

section Level

variable {tokens : List Token}

theorem level_zero (tokens : List Token) : level tokens 0 = 0 := rfl

theorem level_cons (t : Token) (s : List Token) (k : Nat) : level (t :: s) (k + 1) = t.weight + level s k := by
  rw [level, List.take_succ_cons, List.map_cons, List.sum_cons, level]

theorem level_add (tokens : List Token) (i k : Nat) :
    level tokens (i + k) = level tokens i + level (tokens.drop i) k := by
  rw [level, List.take_add, List.map_append, List.sum_append, level, level]

theorem drop_of_getElem? {i : Nat} {t : Token} (h : tokens[i]? = some t) :
    tokens.drop i = t :: tokens.drop (i + 1) := by
  obtain ⟨hi, rfl⟩ := List.getElem?_eq_some_iff.mp h
  exact List.drop_eq_getElem_cons hi

theorem level_succ {i : Nat} {t : Token} (h : tokens[i]? = some t) :
    level tokens (i + 1) = level tokens i + t.weight := by
  rw [level_add, drop_of_getElem? h, level_cons, level_zero, add_zero]

theorem level_of_length_le {i : Nat} (h : tokens.length ≤ i) : level tokens (i + 1) = level tokens i := by
  rw [level, level, List.take_of_length_le h, List.take_of_length_le (Nat.le_succ_of_le h)]

theorem level_mirrored (s : List Token) (k : Nat) : level (s.map Token.mirrored) k = -level s k := by
  induction s generalizing k with
  | nil => simp [level]
  | cons t s ih =>
      cases k with
      | zero => rfl
      | succ k => rw [List.map_cons, level_cons, level_cons, ih, t.weight_mirrored, neg_add]

theorem level_reverse {i k : Nat} (hi : i ≤ tokens.length) (hk : k ≤ i) :
    level (tokens.take i).reverse k = level tokens i - level tokens (i - k) := by
  have hlength : (tokens.take i).length - k = i - k := by rw [List.length_take_of_le hi]
  have htake : (tokens.take i).reverse.take k = ((tokens.drop (i - k)).take k).reverse := by
    rw [List.take_reverse, hlength, List.drop_take, Nat.sub_sub_self hk]
  have hsplit := level_add tokens (i - k) k
  rw [Nat.sub_add_cancel hk] at hsplit
  rw [hsplit, add_sub_cancel_left, level, htake, List.map_reverse, List.sum_reverse, level]

theorem countP_sub_countP (tokens : List Token) :
    (tokens.countP Token.isOpener : Int) - tokens.countP Token.isCloser = (tokens.map Token.weight).sum := by
  induction tokens with
  | nil => rfl
  | cons t s ih =>
      rw [List.map_cons, List.sum_cons, ← ih]
      cases t <;> simp [List.countP_cons, Token.isOpener, Token.isCloser, Token.weight] <;> omega

end Level

theorem closeOffset_eq_some_iff {depth n : Nat} {s : List Token} (hdepth : 0 < depth) :
    closeOffset depth s = some n ↔
      n < s.length ∧ depth + level s (n + 1) = 0 ∧ ∀ k ≤ n, 0 < depth + level s k := by
  induction s generalizing depth n with
  | nil => simp [closeOffset]
  | cons t s ih =>
      have hfirst : level (t :: s) 1 = t.weight := by rw [level_cons t s 0, level_zero, add_zero]
      rw [closeOffset]
      split_ifs with hends
      · have hweight : (depth : Int) + t.weight = 0 := by
          cases t <;> simp [Token.isCloser, Token.weight] at hends ⊢
          omega
        cases n with
        | zero =>
            refine iff_of_true rfl ⟨Nat.succ_pos _, by rw [hfirst, hweight], fun k hk => ?_⟩
            rw [Nat.le_zero.mp hk]
            simpa [level_zero] using hdepth
        | succ n =>
            refine iff_of_false (by simp) ?_
            rintro ⟨-, -, hopen⟩
            have hpositive := hopen 1 (Nat.succ_le_succ n.zero_le)
            omega
      · have hnext : (depthAfter depth t : Int) = depth + t.weight ∧ 0 < depthAfter depth t := by
          cases t <;> simp [Token.isCloser, Token.weight, depthAfter] at hends ⊢ <;> omega
        cases n with
        | zero =>
            refine iff_of_false (by simp) ?_
            rintro ⟨-, hzero, -⟩
            rw [Nat.zero_add, hfirst] at hzero
            omega
        | succ n =>
            have hlevels : (∀ k ≤ n + 1, 0 < depth + level (t :: s) k) ↔
                ∀ k ≤ n, 0 < (depthAfter depth t : Int) + level s k := by
              constructor
              · intro h k hk
                have hk := h (k + 1) (Nat.succ_le_succ hk)
                rw [level_cons] at hk
                omega
              · intro h k hk
                cases k with
                | zero => simpa [level_zero] using hdepth
                | succ k =>
                    have hk := h k (Nat.le_of_succ_le_succ hk)
                    rw [level_cons]
                    omega
            rw [Option.map_eq_some_iff]
            simp only [Nat.succ_inj, exists_eq_right, ih hnext.2, hlevels, List.length_cons, Nat.succ_lt_succ_iff]
            rw [level_cons, hnext.1, add_assoc]

def stretch (tokens : List Token) (first last : Nat) : List Token := (tokens.take (last + 1)).drop first

/-- From one index to another as many brackets close as open, and more open in every shorter stretch from the first. -/
structure Encloses (tokens : List Token) (o c : Nat) : Prop where
  lt : o < c
  even : (stretch tokens o c).countP Token.isOpener = (stretch tokens o c).countP Token.isCloser
  shorter : ∀ j, o ≤ j → j < c →
    (stretch tokens o j).countP Token.isCloser < (stretch tokens o j).countP Token.isOpener

section Matching

variable {tokens : List Token} {o c : Nat} {shape : Bracket}

theorem countP_stretch (tokens : List Token) {j : Nat} (h : o ≤ j) :
    ((stretch tokens o j).countP Token.isOpener : Int) - (stretch tokens o j).countP Token.isCloser =
      level tokens (j + 1) - level tokens o := by
  have hsplit := level_add tokens o (j + 1 - o)
  rw [Nat.add_sub_cancel' (Nat.le_succ_of_le h)] at hsplit
  rw [countP_sub_countP, hsplit, add_sub_cancel_left, stretch, List.drop_take, level]

/-- A bracket encloses the stretch in which the level stays above the one at its beginning, up to the token that brings
it back. The condition is the same from both ends, as the levels at the two ends are one. -/
theorem encloses_iff : Encloses tokens o c ↔ o < c ∧ c < tokens.length ∧ level tokens o = level tokens (c + 1) ∧
    ∀ j, o < j → j ≤ c → level tokens o < level tokens j := by
  constructor
  · intro h
    have hbetween : ∀ j, o < j → j ≤ c → level tokens o < level tokens j := by
      intro j hoj hjc
      have hcount := countP_stretch tokens (Nat.le_sub_one_of_lt hoj)
      have hless := h.shorter (j - 1) (Nat.le_sub_one_of_lt hoj) (by omega)
      rw [Nat.sub_add_cancel (by omega : 1 ≤ j)] at hcount
      omega
    have hends : level tokens o = level tokens (c + 1) := by
      have hcount := countP_stretch tokens h.lt.le
      have heven := h.even
      omega
    refine ⟨h.lt, ?_, hends, hbetween⟩
    by_contra hlength
    have hlast := hbetween c h.lt le_rfl
    rw [hends, level_of_length_le (Nat.le_of_not_lt hlength)] at hlast
    exact absurd hlast (Int.lt_irrefl _)
  · rintro ⟨hlt, -, hends, hbetween⟩
    refine ⟨hlt, ?_, fun j hoj hjc => ?_⟩
    · have hcount := countP_stretch tokens hlt.le
      omega
    · have hcount := countP_stretch tokens hoj
      have habove := hbetween (j + 1) (Nat.lt_succ_of_le hoj) hjc
      omega

theorem matchingClose_eq_some_iff (ho : tokens[o]? = some (.opener shape)) :
    matchingClose tokens o = some c ↔ Encloses tokens o c := by
  have hfirst : level tokens (o + 1) = level tokens o + 1 := level_succ ho
  have hoffset : matchingClose tokens o = some c ↔ ∃ n, closeOffset 1 (tokens.drop (o + 1)) = some n ∧ o + (n + 1) = c := by
    rw [matchingClose, drop_of_getElem? ho]
    simp [closeOffset, Token.isCloser, depthAfter, Option.map_eq_some_iff]
  have hlevel (k : Nat) := level_add tokens (o + 1) k
  rw [hoffset, encloses_iff]
  constructor
  · rintro ⟨n, hn, rfl⟩
    obtain ⟨hlength, hzero, hopen⟩ := (closeOffset_eq_some_iff Nat.one_pos).mp hn
    rw [List.length_drop] at hlength
    refine ⟨by omega, by omega, ?_, fun j hoj hjc => ?_⟩
    · have hend := hlevel (n + 1)
      rw [show o + 1 + (n + 1) = o + (n + 1) + 1 by omega] at hend
      omega
    · have hinner := hopen (j - (o + 1)) (by omega)
      have hj := hlevel (j - (o + 1))
      rw [Nat.add_sub_cancel' hoj] at hj
      omega
  · rintro ⟨hlt, hlength, hends, hbetween⟩
    refine ⟨c - (o + 1), (closeOffset_eq_some_iff Nat.one_pos).mpr ⟨?_, ?_, fun k hk => ?_⟩, by omega⟩
    · rw [List.length_drop]
      omega
    · have hend := hlevel (c - (o + 1) + 1)
      rw [show o + 1 + (c - (o + 1) + 1) = c + 1 by omega] at hend
      omega
    · have hinner := hbetween (o + 1 + k) (by omega) (by omega)
      have hk := hlevel k
      omega

theorem matchingOpen_eq_some_iff (hc : tokens[c]? = some (.closer shape)) :
    matchingOpen tokens c = some o ↔ Encloses tokens o c := by
  obtain ⟨hlength, heq⟩ := List.getElem?_eq_some_iff.mp hc
  have hreverse : (tokens.take (c + 1)).reverse = .closer shape :: (tokens.take c).reverse := by
    rw [List.take_add_one, hc, List.reverse_append]
    rfl
  have hlast : level tokens (c + 1) = level tokens c - 1 := level_succ hc
  have hoffset : matchingOpen tokens c = some o ↔
      ∃ n, closeOffset 1 ((tokens.take c).reverse.map Token.mirrored) = some n ∧ c - (n + 1) = o := by
    rw [matchingOpen, hreverse, openOffset_eq_closeOffset]
    simp [closeOffset, Token.mirrored, Token.isCloser, depthAfter, Option.map_eq_some_iff]
  have hlevel {k : Nat} (hk : k ≤ c) : level ((tokens.take c).reverse.map Token.mirrored) k =
      level tokens (c - k) - level tokens c := by
    rw [level_mirrored, level_reverse hlength.le hk, neg_sub]
  rw [hoffset, encloses_iff]
  constructor
  · rintro ⟨n, hn, rfl⟩
    obtain ⟨hbound, hzero, hopen⟩ := (closeOffset_eq_some_iff Nat.one_pos).mp hn
    rw [List.length_map, List.length_reverse, List.length_take_of_le hlength.le] at hbound
    rw [hlevel (show n + 1 ≤ c from hbound)] at hzero
    refine ⟨by omega, hlength, by omega, fun j hoj hjc => ?_⟩
    have hinner := hopen (c - j) (by omega)
    rw [hlevel (Nat.sub_le c j), Nat.sub_sub_self hjc] at hinner
    omega
  · rintro ⟨hlt, -, hends, hbetween⟩
    refine ⟨c - (o + 1), (closeOffset_eq_some_iff Nat.one_pos).mpr ⟨?_, ?_, fun k hk => ?_⟩, by omega⟩
    · rw [List.length_map, List.length_reverse, List.length_take_of_le hlength.le]
      omega
    · rw [show c - (o + 1) + 1 = c - o by omega, hlevel (Nat.sub_le c o), Nat.sub_sub_self hlt.le]
      omega
    · have hinner := hbetween (c - k) (by omega) (Nat.sub_le c k)
      rw [hlevel (by omega)]
      omega

theorem Encloses.exists_closer (h : Encloses tokens o c) : ∃ other, tokens[c]? = some (.closer other) := by
  obtain ⟨hlt, hlength, hends, hbetween⟩ := encloses_iff.mp h
  have hget := List.getElem?_eq_getElem hlength
  have hstep := level_succ hget
  have habove := hbetween c hlt le_rfl
  rw [hget]
  cases ht : tokens[c] with
  | closer other => exact ⟨other, rfl⟩
  | _ =>
      rw [ht] at hstep
      simp only [Token.weight] at hstep
      omega

/-- Brackets are matched in pairs: the search for the closer of an opener and the search for the opener of a closer find
each other, and what they find is the first stretch from the opener on in which as many brackets close as open. -/
theorem matchingClose_iff_matchingOpen (ho : tokens[o]? = some (.opener shape)) :
    (∀ c other, tokens[c]? = some (.closer other) →
      (matchingClose tokens o = some c ↔ matchingOpen tokens c = some o)) ∧
    (∀ c, matchingClose tokens o = some c ↔ Encloses tokens o c) ∧
    (matchingClose tokens o = none ↔ ¬ ∃ c, Encloses tokens o c) ∧
    (matchingClose tokens o = none ↔
      ¬ ∃ c other, tokens[c]? = some (.closer other) ∧ matchingOpen tokens c = some o) := by
  have hnone : matchingClose tokens o = none ↔ ¬ ∃ c, Encloses tokens o c := by
    simp only [Option.eq_none_iff_forall_ne_some, ne_eq, matchingClose_eq_some_iff ho, not_exists]
  refine ⟨fun c other hc => ?_, fun c => matchingClose_eq_some_iff ho, hnone, ?_⟩
  · rw [matchingClose_eq_some_iff ho, matchingOpen_eq_some_iff hc]
  · rw [hnone]
    refine not_congr (exists_congr fun c => ⟨fun h => ?_, fun ⟨other, hc, hopen⟩ => ?_⟩)
    · obtain ⟨other, hc⟩ := h.exists_closer
      exact ⟨other, hc, (matchingOpen_eq_some_iff hc).mpr h⟩
    · exact (matchingOpen_eq_some_iff hc).mp hopen

def crossedTokens : List Token :=
  [.closer .curly, .opener .round, .name "a", .opener .square, .closer .curly, .closer .round, .opener .curly]

theorem matchingClose_iff_matchingOpen_crossedTokens :
    crossedTokens[1]? = some (.opener .round) ∧ crossedTokens[5]? = some (.closer .round) ∧
      matchingOpen crossedTokens 5 = some 1 ∧ Encloses crossedTokens 1 5 ∧ ¬ ∃ c, Encloses crossedTokens 6 c := by
  have hfirst : crossedTokens[1]? = some (.opener .round) := rfl
  have hlast : crossedTokens[6]? = some (.opener .curly) := rfl
  have hclose : matchingClose crossedTokens 1 = some 5 := by decide
  have hnone : matchingClose crossedTokens 6 = none := by decide
  obtain ⟨hpair, hencloses, -⟩ := matchingClose_iff_matchingOpen hfirst
  exact ⟨rfl, rfl, (hpair 5 .round rfl).mp hclose, (hencloses 5).mp hclose,
    (matchingClose_iff_matchingOpen hlast).2.2.1.mp hnone⟩

end Matching

end BookCompiler.Script
