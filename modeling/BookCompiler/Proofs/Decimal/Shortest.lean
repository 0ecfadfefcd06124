import BookCompiler.Decimal.Format
import BookCompiler.Decimal.Reader
import BookCompiler.Proofs.Decimal.Rounding

namespace BookCompiler.Decimal

open Binary64

theorem powerOfTen_pos (e : Int) : 0 < (powerOfTen e).1 ∧ 0 < (powerOfTen e).2 := by
  rw [powerOfTen]
  split
  · exact ⟨Nat.pow_pos (by norm_num), Nat.one_pos⟩
  · exact ⟨Nat.one_pos, Nat.pow_pos (by norm_num)⟩

theorem powerOfTen_cast (e : Int) : ((powerOfTen e).1 : ℚ) / (powerOfTen e).2 = 10 ^ e :=
  fraction_eq_zpow (b := 10) rfl

theorem ten_zpow_pos (e : Int) : (0 : ℚ) < 10 ^ e := zpow_pos (by norm_num) e

theorem ten_zpow_mono {d e : Int} (h : d ≤ e) : (10 : ℚ) ^ d ≤ 10 ^ e := zpow_le_zpow_right₀ (by norm_num) h

theorem ten_zpow_add (d e : Int) : (10 : ℚ) ^ (d + e) = 10 ^ d * 10 ^ e := zpow_add₀ (by norm_num) d e

section

variable {m : Nat} {e : Int}

theorem cellOf_den_pos (m : Nat) (e : Int) : 0 < (cellOf m e).den := (powerOfTwo_pos (e - 2)).2

theorem quarters_cast (n : Nat) (e : Int) :
    ((n * (powerOfTwo (e - 2)).1 : Nat) : ℚ) / (powerOfTwo (e - 2)).2 = n / 4 * 2 ^ e := by
  rw [Nat.cast_mul, mul_div_assoc, powerOfTwo_cast, show e - 2 = e + (-2) by ring, two_zpow_add]
  norm_num
  ring

theorem cellOf_value (m : Nat) (e : Int) : ((cellOf m e).value : ℚ) / (cellOf m e).den = m * 2 ^ e := by
  refine (quarters_cast (4 * m) e).trans ?_
  push_cast
  ring

theorem cellOf_high (m : Nat) (e : Int) : ((cellOf m e).high : ℚ) / (cellOf m e).den = (m + 1 / 2) * 2 ^ e := by
  refine (quarters_cast (4 * m + 2) e).trans ?_
  push_cast
  ring

theorem cellOf_low (hm : 0 < m) : ((cellOf m e).low : ℚ) / (cellOf m e).den = (m - gapBelow m e) * 2 ^ e := by
  refine (quarters_cast (4 * m - if m = Nat.pow 2 52 && leastExponent < e then 1 else 2) e).trans ?_
  rw [Nat.pow_eq, gapBelow]
  by_cases hgap : m = 2 ^ 52 ∧ leastExponent < e
  · rw [if_pos hgap, if_pos (by simpa using hgap), Nat.cast_sub (by omega)]
    push_cast
    ring
  · rw [if_neg hgap, if_neg (by simpa using hgap), Nat.cast_sub (by omega)]
    push_cast
    ring

theorem roundsTo_of_contains {num den : Nat} (hm : 0 < m) (hden : 0 < den)
    (h : (cellOf m e).contains num den = true) : RoundsTo ((num : ℚ) / den) m e := by
  have hden' : (0 : ℚ) < den := by exact_mod_cast hden
  have hcell : (0 : ℚ) < (cellOf m e).den := by exact_mod_cast cellOf_den_pos m e
  rw [Cell.contains] at h
  split at h
  · rename_i hclosed
    obtain ⟨hlow, hhigh⟩ : (cellOf m e).low * den ≤ num * (cellOf m e).den ∧
        num * (cellOf m e).den ≤ (cellOf m e).high * den := by simpa using h
    refine ⟨?_, ?_, fun _ => by simpa [cellOf] using hclosed⟩
    · rw [← cellOf_low hm, div_le_div_iff₀ hcell hden']
      exact_mod_cast hlow
    · rw [← cellOf_high, div_le_div_iff₀ hden' hcell]
      exact_mod_cast hhigh
  · obtain ⟨hlow, hhigh⟩ : (cellOf m e).low * den < num * (cellOf m e).den ∧
        num * (cellOf m e).den < (cellOf m e).high * den := by simpa using h
    have hlow' : (m - gapBelow m e) * 2 ^ e < (num : ℚ) / den := by
      rw [← cellOf_low hm, div_lt_div_iff₀ hcell hden']
      exact_mod_cast hlow
    have hhigh' : (num : ℚ) / den < (m + 1 / 2) * 2 ^ e := by
      rw [← cellOf_high, div_lt_div_iff₀ hden' hcell]
      exact_mod_cast hhigh
    refine ⟨hlow'.le, hhigh'.le, ?_⟩
    rintro (heq | heq)
    · exact absurd heq (ne_of_gt hlow')
    · exact absurd heq (ne_of_lt hhigh')

theorem contains_of_lt {num den : Nat} (hm : 0 < m) (hden : 0 < den)
    (hlow : (m - gapBelow m e) * 2 ^ e < (num : ℚ) / den) (hhigh : (num : ℚ) / den < (m + 1 / 2) * 2 ^ e) :
    (cellOf m e).contains num den = true := by
  have hden' : (0 : ℚ) < den := by exact_mod_cast hden
  have hcell : (0 : ℚ) < (cellOf m e).den := by exact_mod_cast cellOf_den_pos m e
  rw [← cellOf_low hm, div_lt_div_iff₀ hcell hden'] at hlow
  rw [← cellOf_high, div_lt_div_iff₀ hden' hcell] at hhigh
  have hlow' : (cellOf m e).low * den < num * (cellOf m e).den := by exact_mod_cast hlow
  have hhigh' : num * (cellOf m e).den < (cellOf m e).high * den := by exact_mod_cast hhigh
  rw [Cell.contains]
  split <;> simp [hlow', hhigh', hlow'.le, hhigh'.le]

theorem grid_cast (n : Nat) (g : Int) : ((n * (powerOfTen g).1 : Nat) : ℚ) / (powerOfTen g).2 = n * 10 ^ g := by
  rw [← powerOfTen_cast]
  push_cast
  ring

theorem roundsTo_of_onGrid? {n : Nat} {g : Int} (hm : 0 < m) (h : (cellOf m e).onGrid? g = some n) :
    RoundsTo (n * 10 ^ g) m e := by
  have hinside {k : Nat} (hk : (cellOf m e).contains (k * (powerOfTen g).1) (powerOfTen g).2 = true) :
      RoundsTo (k * 10 ^ g) m e := by
    rw [← grid_cast]
    exact roundsTo_of_contains hm (powerOfTen_pos g).2 hk
  rw [Cell.onGrid?] at h
  dsimp only at h
  split at h
  · rename_i hbelow
    cases h
    exact hinside (Bool.and_eq_true _ _ ▸ hbelow).1
  · split at h
    · rename_i habove
      cases h
      exact hinside habove
    · cases h

/-- The numbers on a fine enough grid lie closer than the cell of a double is wide. -/
theorem onGrid?_isSome {g : Int} (hm : 0 < m) (hc : Canonical m e) (hg : 10 ^ g * 10 ^ 16 ≤ (m : ℚ) * 2 ^ e) :
    ((cellOf m e).onGrid? g).isSome = true := by
  have hspacing := ten_zpow_pos g
  have hunit := two_zpow_pos e
  have hm53 : (m : ℚ) + 1 ≤ 2 ^ 53 := by exact_mod_cast hc.lt
  have hden : (0 : ℚ) < (cellOf m e).den * (powerOfTen g).1 := by
    exact_mod_cast Nat.mul_pos (cellOf_den_pos m e) (powerOfTen_pos g).1
  generalize hn : (cellOf m e).value * (powerOfTen g).2 / ((cellOf m e).den * (powerOfTen g).1) = n
  have hvalue : ((cellOf m e).value * (powerOfTen g).2 : ℚ) / ((cellOf m e).den * (powerOfTen g).1) =
      m * 2 ^ e / 10 ^ g := by
    rw [← cellOf_value m e, ← powerOfTen_cast, div_div_div_eq]
  have hfloor : (n : ℚ) * 10 ^ g ≤ m * 2 ^ e ∧ (m : ℚ) * 2 ^ e < (n + 1) * 10 ^ g := by
    rw [← le_div_iff₀ hspacing, ← div_lt_iff₀ hspacing, ← hvalue, le_div_iff₀ hden, div_lt_iff₀ hden, ← hn]
    constructor
    · exact_mod_cast Nat.div_mul_le_self _ _
    · exact_mod_cast Nat.lt_mul_of_div_lt (Nat.lt_succ_self _)
        (Nat.mul_pos (cellOf_den_pos m e) (powerOfTen_pos g).1)
  have hnear : (cellOf m e).contains (n * (powerOfTen g).1) (powerOfTen g).2 = true ∨
      (cellOf m e).contains ((n + 1) * (powerOfTen g).1) (powerOfTen g).2 = true := by
    by_cases hpower : m = 2 ^ 52 ∧ leastExponent < e
    · refine Or.inr (contains_of_lt hm (powerOfTen_pos g).2 ?_ ?_)
      · rw [grid_cast, gapBelow, if_pos hpower]
        push_cast
        nlinarith
      · rw [grid_cast]
        have hm52 : (m : ℚ) = 2 ^ 52 := by exact_mod_cast hpower.1
        rw [hm52] at hg hfloor ⊢
        push_cast
        nlinarith
    · by_cases hhalf : (m : ℚ) * 2 ^ e - n * 10 ^ g ≤ 10 ^ g / 2
      · refine Or.inl (contains_of_lt hm (powerOfTen_pos g).2 ?_ ?_)
        · rw [grid_cast, gapBelow, if_neg hpower]
          nlinarith
        · rw [grid_cast]
          nlinarith
      · refine Or.inr (contains_of_lt hm (powerOfTen_pos g).2 ?_ ?_)
        · rw [grid_cast, gapBelow, if_neg hpower]
          push_cast
          nlinarith
        · rw [grid_cast]
          push_cast
          nlinarith
  rw [Cell.onGrid?]
  dsimp only
  rw [hn]
  split
  · rfl
  · rename_i hnot
    split
    · rfl
    · rename_i habove
      have hbelow := hnear.resolve_right habove
      simp [habove, hbelow] at hnot

theorem firstGrid_spec {cell : Cell} {fuel k : Nat} {g : Int} (hk : k < fuel)
    (h : (cell.onGrid? (g - k)).isSome = true) :
    cell.onGrid? (cell.firstGrid fuel g).2 = some (cell.firstGrid fuel g).1 := by
  induction fuel generalizing g k with
  | zero => omega
  | succ fuel ih =>
      cases hgrid : cell.onGrid? g with
      | some n => simp [Cell.firstGrid, hgrid]
      | none =>
          have hpos : k ≠ 0 := by
            rintro rfl
            simp [hgrid] at h
          simp only [Cell.firstGrid, hgrid]
          apply ih (k := k - 1) (by omega)
          rwa [show g - 1 - ((k - 1 : Nat) : Int) = g - k by omega]

theorem ten_pow_length_le {n : Nat} (hn : 0 < n) : 10 ^ ((Nat.toDigits 10 n).length - 1) ≤ n := by
  have hlength := Nat.length_toDigits_pos (b := 10) (n := n)
  by_cases hone : (Nat.toDigits 10 n).length = 1
  · rw [hone, Nat.sub_self, Nat.pow_zero]
    exact hn
  · by_contra h
    have hle := (Nat.length_toDigits_le_iff (n := n) (k := (Nat.toDigits 10 n).length - 1) (by norm_num : 1 < 10)
      (by omega)).mpr (by omega)
    omega

theorem lt_ten_pow_length (n : Nat) : n < 10 ^ (Nat.toDigits 10 n).length :=
  (Nat.length_toDigits_le_iff (by norm_num) Nat.length_toDigits_pos).mp (le_refl _)

theorem magnitude_le {num den : Nat} (hnum : 0 < num) (hden : 0 < den) :
    (10 : ℚ) ^ magnitude num den ≤ (num : ℚ) / den := by
  have hden' : (0 : ℚ) < den := by exact_mod_cast hden
  rw [magnitude]
  split
  · rename_i hle
    have hdiv : 0 < num / den := Nat.div_pos hle hden
    have hlength := Nat.length_toDigits_pos (b := 10) (n := num / den)
    have hpow := ten_pow_length_le hdiv
    rw [show ((Nat.toDigits 10 (num / den)).length : Int) - 1 = ((Nat.toDigits 10 (num / den)).length - 1 : Nat) by omega,
      zpow_natCast, le_div_iff₀ hden']
    have hmul : 10 ^ ((Nat.toDigits 10 (num / den)).length - 1) * den ≤ num :=
      le_trans (Nat.mul_le_mul_right den hpow) (Nat.div_mul_le_self num den)
    exact_mod_cast hmul
  · rename_i hlt
    have hlen : (Nat.toDigits 10 num).length ≤ (Nat.toDigits 10 den).length :=
      (Nat.length_toDigits_le_iff (by norm_num) Nat.length_toDigits_pos).mpr
        (lt_trans (not_le.mp hlt) (lt_ten_pow_length den))
    dsimp only
    split
    · rename_i hle
      rw [zpow_neg, zpow_natCast, le_div_iff₀ hden', inv_mul_le_iff₀ (by positivity)]
      rw [mul_comm]
      exact_mod_cast hle
    · have hlength := Nat.length_toDigits_pos (b := 10) (n := num)
      have hpow := ten_pow_length_le hnum
      have hbound : den ≤ num * 10 ^ ((Nat.toDigits 10 den).length - (Nat.toDigits 10 num).length + 1) := by
        calc den ≤ 10 ^ (Nat.toDigits 10 den).length := (lt_ten_pow_length den).le
          _ = 10 ^ ((Nat.toDigits 10 num).length - 1) *
                10 ^ ((Nat.toDigits 10 den).length - (Nat.toDigits 10 num).length + 1) := by
              rw [← Nat.pow_add]
              congr 1
              omega
          _ ≤ num * 10 ^ ((Nat.toDigits 10 den).length - (Nat.toDigits 10 num).length + 1) :=
              Nat.mul_le_mul_right _ hpow
      rw [show -(((Nat.toDigits 10 den).length - (Nat.toDigits 10 num).length : Nat) : Int) - 1 =
        -(((Nat.toDigits 10 den).length - (Nat.toDigits 10 num).length + 1 : Nat) : Int) by push_cast; ring]
      rw [zpow_neg, zpow_natCast, le_div_iff₀ hden', inv_mul_le_iff₀ (by positivity), mul_comm]
      exact_mod_cast hbound

/-- The digits of a double stand for a number that rounds to it. -/
theorem shortest_spec (hm : 0 < m) (hc : Canonical m e) :
    ∃ (n : Nat) (g : Int), RoundsTo (n * 10 ^ g) m e ∧
      shortest m e =
        ⟨dropTrailingZeros (Nat.toDigits 10 n), g + (Nat.toDigits 10 n).length - 1⟩ := by
  have hvalue : 0 < (cellOf m e).value :=
    Nat.mul_pos (Nat.mul_pos (by norm_num) hm) (powerOfTwo_pos (e - 2)).1
  have hmagnitude := magnitude_le hvalue (cellOf_den_pos m e)
  rw [cellOf_value] at hmagnitude
  have hgrid : ((cellOf m e).onGrid? (magnitude (cellOf m e).value (cellOf m e).den - (16 : Nat))).isSome = true := by
    apply onGrid?_isSome hm hc
    refine le_trans (le_of_eq ?_) hmagnitude
    rw [show magnitude (cellOf m e).value (cellOf m e).den - ((16 : Nat) : Int) =
      magnitude (cellOf m e).value (cellOf m e).den + (-16) by push_cast; ring, ten_zpow_add]
    norm_num
    ring
  have hfirst := firstGrid_spec (by norm_num : 16 < 17) hgrid
  refine ⟨_, _, roundsTo_of_onGrid? hm hfirst, ?_⟩
  rw [shortest, if_neg (Nat.pos_iff_ne_zero.mp hm)]

end

end BookCompiler.Decimal
