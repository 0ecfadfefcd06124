import BookCompiler.Decimal.Binary64
import Mathlib.Algebra.Order.Field.Power
import Mathlib.Tactic.FieldSimp
import Mathlib.Tactic.Linarith
import Mathlib.Tactic.NormNum
import Mathlib.Tactic.Positivity
import Mathlib.Tactic.Ring

namespace BookCompiler.Binary64

theorem powerOfTwo_pos (e : Int) : 0 < (powerOfTwo e).1 ∧ 0 < (powerOfTwo e).2 := by
  rw [powerOfTwo]
  split
  · exact ⟨Nat.two_pow_pos _, Nat.one_pos⟩
  · exact ⟨Nat.one_pos, Nat.two_pow_pos _⟩

theorem fraction_eq_zpow {b : Nat} {e : Int} {q : Nat × Nat}
    (h : q = if 0 ≤ e then (b ^ e.toNat, 1) else (1, b ^ (-e).toNat)) : (q.1 : ℚ) / q.2 = (b : ℚ) ^ e := by
  rw [h]
  split
  · rename_i he
    obtain ⟨n, rfl⟩ := Int.eq_ofNat_of_zero_le he
    simp
  · rename_i he
    obtain ⟨n, hn⟩ := Int.eq_ofNat_of_zero_le (show 0 ≤ -e by omega)
    obtain rfl : e = -n := by omega
    simp

theorem powerOfTwo_cast (e : Int) : ((powerOfTwo e).1 : ℚ) / (powerOfTwo e).2 = 2 ^ e :=
  fraction_eq_zpow (b := 2) rfl

theorem scaled_pos {den : Nat} (num : Nat) (e : Int) (hden : 0 < den) : 0 < (scaled num den e).2 :=
  Nat.mul_pos hden (powerOfTwo_pos e).1

theorem scaled_cast (num den : Nat) (e : Int) :
    ((scaled num den e).1 : ℚ) / (scaled num den e).2 = (num : ℚ) / den / 2 ^ e := by
  obtain ⟨hup, hdown⟩ := powerOfTwo_pos e
  have hup' : ((powerOfTwo e).1 : ℚ) ≠ 0 := by positivity
  have hdown' : ((powerOfTwo e).2 : ℚ) ≠ 0 := by positivity
  rw [← powerOfTwo_cast e, scaled]
  push_cast
  by_cases hden : (den : ℚ) = 0
  · simp [hden]
  · field_simp

theorem roundDiv_eq {num den m : Nat} (hden : 0 < den) (hlow : 2 * m * den ≤ 2 * num + den)
    (hhigh : 2 * num ≤ 2 * m * den + den)
    (htie : 2 * m * den = 2 * num + den ∨ 2 * num = 2 * m * den + den → m % 2 = 0) : roundDiv num den = m := by
  have hnum := Nat.div_add_mod num den
  have hr := Nat.mod_lt num hden
  rw [roundDiv]
  generalize num / den = q at *
  generalize num % den = r at *
  have hqm : q ≤ m := by
    by_contra h
    have hmul : den * (m + 1) ≤ den * q := Nat.mul_le_mul_left den (by omega)
    nlinarith
  have hmq : m ≤ q + 1 := by
    by_contra h
    have hmul : den * (q + 2) ≤ den * m := Nat.mul_le_mul_left den (by omega)
    nlinarith
  obtain rfl | rfl : m = q ∨ m = q + 1 := by omega
  · have hle : 2 * r ≤ den := by nlinarith
    by_cases heq : 2 * r = den
    · have heven := htie (Or.inr (by nlinarith))
      simp [heq, heven]
    · have hlt : 2 * r < den := by omega
      simp [hlt]
  · have hle : den ≤ 2 * r := by nlinarith
    by_cases heq : 2 * r = den
    · have heven := htie (Or.inl (by nlinarith))
      have hodd : q % 2 = 1 := by omega
      simp [heq, hodd]
    · have hlt : ¬ 2 * r < den := by omega
      simp [hlt, heq]

theorem roundDiv_of_near {num den m : Nat} (hden : 0 < den) (hlow : (m : ℚ) - 1 / 2 ≤ (num : ℚ) / den)
    (hhigh : (num : ℚ) / den ≤ m + 1 / 2)
    (htie : (num : ℚ) / den = m - 1 / 2 ∨ (num : ℚ) / den = m + 1 / 2 → m % 2 = 0) : roundDiv num den = m := by
  have hden' : (0 : ℚ) < den := by exact_mod_cast hden
  have hne : (den : ℚ) ≠ 0 := ne_of_gt hden'
  rw [le_div_iff₀ hden'] at hlow
  rw [div_le_iff₀ hden'] at hhigh
  rw [div_eq_iff hne, div_eq_iff hne] at htie
  apply roundDiv_eq hden
  · have h : 2 * (m : ℚ) * den ≤ 2 * num + den := by linarith
    exact_mod_cast h
  · have h : 2 * (num : ℚ) ≤ 2 * m * den + den := by linarith
    exact_mod_cast h
  · rintro (h | h)
    · have h' : 2 * (m : ℚ) * den = 2 * num + den := by exact_mod_cast h
      exact htie (Or.inl (by linarith))
    · have h' : 2 * (num : ℚ) = 2 * m * den + den := by exact_mod_cast h
      exact htie (Or.inr (by linarith))

theorem two_zpow_pos (e : Int) : (0 : ℚ) < 2 ^ e := zpow_pos (by norm_num) e

theorem two_zpow_mono {d e : Int} (h : d ≤ e) : (2 : ℚ) ^ d ≤ 2 ^ e := zpow_le_zpow_right₀ (by norm_num) h

theorem two_zpow_add (d e : Int) : (2 : ℚ) ^ (d + e) = 2 ^ d * 2 ^ e := zpow_add₀ (by norm_num) d e

/-- The exponent of the doubles around a number. -/
structure ExponentOf (x : ℚ) (e : Int) : Prop where
  least : leastExponent ≤ e
  lt : x < 2 ^ (e + 53)
  le : e = leastExponent ∨ 2 ^ (e + 52) ≤ x

theorem ExponentOf.le_of {x : ℚ} {d e : Int} (hd : ExponentOf x d) (he : ExponentOf x e) : d ≤ e := by
  by_contra h
  rcases hd.le with hleast | hle
  · have := he.least
    omega
  · have hmono := two_zpow_mono (show e + 53 ≤ d + 52 by omega)
    linarith [he.lt]

theorem ExponentOf.unique {x : ℚ} {d e : Int} (hd : ExponentOf x d) (he : ExponentOf x e) : d = e :=
  le_antisymm (hd.le_of he) (he.le_of hd)

theorem log2_bounds {n : Nat} (hn : 0 < n) : (2 : ℚ) ^ (n.log2 : Int) ≤ n ∧ (n : ℚ) < 2 ^ ((n.log2 : Int) + 1) := by
  constructor
  · rw [zpow_natCast]
    exact_mod_cast Nat.log2_self_le (Nat.pos_iff_ne_zero.mp hn)
  · have h : n < 2 ^ (n.log2 + 1) := Nat.lt_log2_self
    rw [show ((n.log2 : Int) + 1) = ((n.log2 + 1 : Nat) : Int) by push_cast; ring, zpow_natCast]
    exact_mod_cast h

theorem quotient_bounds {num den : Nat} (hnum : 0 < num) (hden : 0 < den) :
    (2 : ℚ) ^ ((num.log2 : Int) - den.log2 - 1) ≤ (num : ℚ) / den ∧
      (num : ℚ) / den < 2 ^ ((num.log2 : Int) - den.log2 + 1) := by
  obtain ⟨hnlow, hnhigh⟩ := log2_bounds hnum
  obtain ⟨hdlow, hdhigh⟩ := log2_bounds hden
  have hden' : (0 : ℚ) < den := by exact_mod_cast hden
  have hnum' : (0 : ℚ) < num := by exact_mod_cast hnum
  constructor
  · rw [le_div_iff₀ hden']
    calc (2 : ℚ) ^ ((num.log2 : Int) - den.log2 - 1) * den
        ≤ 2 ^ ((num.log2 : Int) - den.log2 - 1) * 2 ^ ((den.log2 : Int) + 1) :=
          mul_le_mul_of_nonneg_left hdhigh.le (two_zpow_pos _).le
      _ = 2 ^ (num.log2 : Int) := by rw [← two_zpow_add]; congr 1; ring
      _ ≤ num := hnlow
  · rw [div_lt_iff₀ hden']
    calc (num : ℚ) < 2 ^ ((num.log2 : Int) + 1) := hnhigh
      _ = 2 ^ ((num.log2 : Int) - den.log2 + 1) * 2 ^ (den.log2 : Int) := by
          rw [← two_zpow_add]; congr 1; ring
      _ ≤ 2 ^ ((num.log2 : Int) - den.log2 + 1) * den :=
          mul_le_mul_of_nonneg_left hdlow (two_zpow_pos _).le

theorem scaled_div_lt_iff {den : Nat} (num k : Nat) (e : Int) (hden : 0 < den) :
    (scaled num den e).1 / (scaled num den e).2 < k ↔ (num : ℚ) / den < k * 2 ^ e := by
  have hpos := scaled_pos num e hden
  have hpos' : (0 : ℚ) < (scaled num den e).2 := by exact_mod_cast hpos
  rw [Nat.div_lt_iff_lt_mul hpos, ← div_lt_iff₀ (two_zpow_pos e), ← scaled_cast, div_lt_iff₀ hpos']
  exact_mod_cast Iff.rfl

theorem exponentFor_spec {num den : Nat} (hnum : 0 < num) (hden : 0 < den) :
    ExponentOf ((num : ℚ) / den) (exponentFor num den) := by
  obtain ⟨hlow, hhigh⟩ := quotient_bounds hnum hden
  rw [exponentFor]
  generalize hguess : max leastExponent ((num.log2 : Int) - (den.log2 : Int) - 53) = guess
  have hleast : leastExponent ≤ guess := by omega
  have hpow : ((2 ^ 53 : Nat) : ℚ) = 2 ^ (53 : Int) := by norm_num
  have hiff := scaled_div_lt_iff num (2 ^ 53) guess hden
  rw [hpow, ← two_zpow_add, add_comm] at hiff
  dsimp only
  split
  · rename_i hlt
    refine ⟨hleast, hiff.mp hlt, ?_⟩
    by_cases hg : guess = leastExponent
    · exact Or.inl hg
    · obtain rfl : guess = (num.log2 : Int) - den.log2 - 53 := by omega
      refine Or.inr ?_
      rwa [show (num.log2 : Int) - den.log2 - 53 + 52 = num.log2 - den.log2 - 1 by ring]
  · rename_i hge
    refine ⟨by omega, ?_, Or.inr ?_⟩
    · exact lt_of_lt_of_le hhigh (two_zpow_mono (by omega))
    · rw [show guess + 1 + 52 = guess + 53 by ring]
      exact not_lt.mp (mt hiff.mpr hge)

structure Canonical (m : Nat) (e : Int) : Prop where
  lt : m < 2 ^ 53
  least : leastExponent ≤ e
  greatest : e ≤ greatestExponent
  normal : e = leastExponent ∨ 2 ^ 52 ≤ m

/-- How far below a double the numbers reach that round to it, in units of its last place. Below a
power of two the doubles lie closer. -/
def gapBelow (m : Nat) (e : Int) : ℚ := if m = 2 ^ 52 ∧ leastExponent < e then 1 / 4 else 1 / 2

structure RoundsTo (x : ℚ) (m : Nat) (e : Int) : Prop where
  low : (m - gapBelow m e) * 2 ^ e ≤ x
  high : x ≤ (m + 1 / 2) * 2 ^ e
  ends : x = (m - gapBelow m e) * 2 ^ e ∨ x = (m + 1 / 2) * 2 ^ e → m % 2 = 0

theorem gapBelow_le (m : Nat) (e : Int) : gapBelow m e ≤ 1 / 2 := by
  rw [gapBelow]
  split <;> norm_num

theorem ofQuotient_of_round {num den m : Nat} {e : Int} (negative : Bool) (hnum : 0 < num)
    (he : exponentFor num den = e) (hround : roundDiv (scaled num den e).1 (scaled num den e).2 = m) :
    ofQuotient negative num den =
      if m = 2 ^ 53 then if greatestExponent < e + 1 then .infinite negative else .finite negative (2 ^ 52) (e + 1)
      else if greatestExponent < e then .infinite negative else .finite negative m e := by
  rw [ofQuotient, if_neg (Nat.pos_iff_ne_zero.mp hnum), he]
  dsimp only
  rw [hround, Nat.pow_eq, Nat.pow_eq]
  by_cases hm : m = 2 ^ 53
  · rw [if_pos hm, if_pos hm]
  · rw [if_neg hm, if_neg hm]

section

variable {x : ℚ} {m : Nat} {e : Int}

theorem exponentOf_of_roundsTo (hc : Canonical m e) (h : RoundsTo x m e)
    (hnot : ¬ (m = 2 ^ 52 ∧ leastExponent < e ∧ x < 2 ^ (e + 52))) : ExponentOf x e := by
  have hpos := two_zpow_pos e
  refine ⟨hc.least, ?_, ?_⟩
  · have hm : (m : ℚ) + 1 ≤ 2 ^ 53 := by exact_mod_cast hc.lt
    have hlt : ((m : ℚ) + 1 / 2) * 2 ^ e < 2 ^ 53 * 2 ^ e := by
      apply mul_lt_mul_of_pos_right _ hpos
      linarith
    rw [two_zpow_add, mul_comm]
    exact lt_of_le_of_lt h.high (by exact_mod_cast hlt)
  · rcases hc.normal with hleast | hnormal
    · exact Or.inl hleast
    · by_cases hleast : e = leastExponent
      · exact Or.inl hleast
      · have hless : leastExponent < e := lt_of_le_of_ne hc.least (Ne.symm hleast)
        refine Or.inr ?_
        by_cases hm : m = 2 ^ 52
        · exact not_lt.mp fun hlt => hnot ⟨hm, hless, hlt⟩
        · have hm' : (2 : ℚ) ^ 52 + 1 ≤ m := by exact_mod_cast (show 2 ^ 52 + 1 ≤ m by omega)
          have hgap := gapBelow_le m e
          have hle : (2 : ℚ) ^ 52 * 2 ^ e ≤ (m - gapBelow m e) * 2 ^ e := by
            apply mul_le_mul_of_nonneg_right _ hpos.le
            linarith
          rw [two_zpow_add, mul_comm]
          exact le_trans (by exact_mod_cast hle) h.low

theorem exponentOf_below (h : RoundsTo x (2 ^ 52) e) (hless : leastExponent < e) (hlt : x < 2 ^ (e + 52)) :
    ExponentOf x (e - 1) := by
  have hpos := two_zpow_pos e
  have hlow := h.low
  rw [gapBelow, if_pos ⟨rfl, hless⟩] at hlow
  refine ⟨by omega, by rwa [show e - 1 + 53 = e + 52 by ring], Or.inr ?_⟩
  rw [show e - 1 + 52 = e + 51 by ring, two_zpow_add]
  norm_num at hlow ⊢
  nlinarith

end

/-- Every quotient in the cell of a double is read as that double. -/
theorem ofQuotient_of_roundsTo {num den m : Nat} {e : Int} (negative : Bool) (hnum : 0 < num) (hden : 0 < den)
    (hc : Canonical m e) (h : RoundsTo ((num : ℚ) / den) m e) : ofQuotient negative num den = .finite negative m e := by
  have hpos := two_zpow_pos e
  have hexponent := exponentFor_spec hnum hden
  by_cases hcase : m = 2 ^ 52 ∧ leastExponent < e ∧ (num : ℚ) / den < 2 ^ (e + 52)
  · obtain ⟨rfl, hless, hlt⟩ := hcase
    have he := hexponent.unique (exponentOf_below h hless hlt)
    have hlow := h.low
    rw [gapBelow, if_pos ⟨rfl, hless⟩] at hlow
    have hround : roundDiv (scaled num den (e - 1)).1 (scaled num den (e - 1)).2 = 2 ^ 53 := by
      apply roundDiv_of_near (scaled_pos num _ hden)
      · rw [scaled_cast, le_div_iff₀ (two_zpow_pos _), show e - 1 = e + (-1) by ring, two_zpow_add]
        norm_num at hlow ⊢
        linarith
      · rw [scaled_cast, div_le_iff₀ (two_zpow_pos _), show e - 1 = e + (-1) by ring, two_zpow_add]
        rw [two_zpow_add] at hlt
        norm_num at hlt ⊢
        linarith
      · intro _
        rfl
    have hgreatest := hc.greatest
    rw [ofQuotient_of_round negative hnum he hround, if_pos rfl, if_neg (by omega), show e - 1 + 1 = e by ring]
  · have he := hexponent.unique (exponentOf_of_roundsTo hc h hcase)
    have hgap := gapBelow_le m e
    have hround : roundDiv (scaled num den e).1 (scaled num den e).2 = m := by
      apply roundDiv_of_near (scaled_pos num _ hden)
      · rw [scaled_cast, le_div_iff₀ hpos]
        exact le_trans (mul_le_mul_of_nonneg_right (by linarith) hpos.le) h.low
      · rw [scaled_cast, div_le_iff₀ hpos]
        exact h.high
      · rw [scaled_cast, div_eq_iff (ne_of_gt hpos), div_eq_iff (ne_of_gt hpos)]
        rintro (htie | htie)
        · apply h.ends
          refine Or.inl (le_antisymm ?_ h.low)
          rw [htie]
          exact mul_le_mul_of_nonneg_right (by linarith) hpos.le
        · exact h.ends (Or.inr htie)
    have hlt := hc.lt
    have hgreatest := hc.greatest
    rw [ofQuotient_of_round negative hnum he hround, if_neg (by omega), if_neg (by omega)]

theorem canonical_zero : Canonical 0 leastExponent := ⟨by norm_num, le_refl _, by decide, Or.inl rfl⟩

theorem roundDiv_bounds (num den : Nat) : num / den ≤ roundDiv num den ∧ roundDiv num den ≤ num / den + 1 := by
  rw [roundDiv]
  split <;> omega

theorem canonical_of_ofQuotient {num den m : Nat} {e : Int} {negative n : Bool} (hden : 0 < den)
    (h : ofQuotient negative num den = .finite n m e) : Canonical m e := by
  by_cases hnum : num = 0
  · rw [ofQuotient, if_pos hnum, zero] at h
    cases h
    exact canonical_zero
  · have hspec := exponentFor_spec (Nat.pos_of_ne_zero hnum) hden
    have hpos := scaled_pos num (exponentFor num den) hden
    have hbounds := roundDiv_bounds (scaled num den (exponentFor num den)).1 (scaled num den (exponentFor num den)).2
    have hhigh : (scaled num den (exponentFor num den)).1 / (scaled num den (exponentFor num den)).2 < 2 ^ 53 := by
      rw [scaled_div_lt_iff _ _ _ hden]
      have hlt := hspec.lt
      rw [two_zpow_add, mul_comm] at hlt
      exact_mod_cast hlt
    have hlow : exponentFor num den = leastExponent ∨
        2 ^ 52 ≤ (scaled num den (exponentFor num den)).1 / (scaled num den (exponentFor num den)).2 := by
      rcases hspec.le with hle | hle
      · exact Or.inl hle
      · refine Or.inr (not_lt.mp ?_)
        rw [scaled_div_lt_iff _ _ _ hden, not_lt]
        rw [two_zpow_add, mul_comm] at hle
        exact_mod_cast hle
    have hleast := hspec.least
    rw [ofQuotient_of_round negative (Nat.pos_of_ne_zero hnum) rfl rfl] at h
    generalize exponentFor num den = d at *
    generalize (scaled num den d).1 / (scaled num den d).2 = q at *
    generalize roundDiv (scaled num den d).1 (scaled num den d).2 = r at *
    split at h
    · split at h
      · cases h
      · cases h
        exact ⟨by norm_num, by omega, by omega, Or.inr (le_refl _)⟩
    · split at h
      · cases h
      · cases h
        exact ⟨by omega, hleast, by omega, by omega⟩

theorem canonical_of_ofDecimal {digits m : Nat} {exponent e : Int} {negative n : Bool}
    (h : ofDecimal negative digits exponent = .finite n m e) : Canonical m e := by
  rw [ofDecimal] at h
  split at h
  · cases h
    exact canonical_zero
  · split at h
    · cases h
    · split at h
      · exact canonical_of_ofQuotient Nat.one_pos h
      · exact canonical_of_ofQuotient (Nat.pow_pos (by norm_num)) h

end BookCompiler.Binary64
