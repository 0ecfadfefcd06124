import Mathlib.Data.List.TakeWhile
import BookCompiler.Proofs.Decimal.Shortest

namespace BookCompiler.Decimal

open Binary64

theorem valueOfDigits_eq (digits : List Char) : valueOfDigits digits = Nat.ofDigitChars 10 digits 0 := by
  rw [Nat.ofDigitChars_eq_foldl]
  rfl

theorem valueOfDigits_toDigits (n : Nat) : valueOfDigits (Nat.toDigits 10 n) = n := by
  rw [valueOfDigits_eq, Nat.ofDigitChars_ten_toDigits]

theorem valueOfDigits_append_zeros (digits : List Char) (k : Nat) :
    valueOfDigits (digits ++ zeros k) = valueOfDigits digits * 10 ^ k := by
  rw [valueOfDigits_eq, valueOfDigits_eq, Nat.ofDigitChars_append, zeros, Nat.ofDigitChars_replicate_zero, Nat.mul_comm]

theorem valueOfDigits_zeros_append (digits : List Char) (k : Nat) :
    valueOfDigits (zeros k ++ digits) = valueOfDigits digits := by
  rw [valueOfDigits_eq, valueOfDigits_eq, Nat.ofDigitChars_append, zeros, Nat.ofDigitChars_replicate_zero, Nat.mul_zero]

theorem toDigits_isDigit (n : Nat) : ∀ c ∈ Nat.toDigits 10 n, c.isDigit = true := fun _ hc =>
  Nat.isDigit_of_mem_toDigits (by norm_num) (by norm_num) hc

theorem zeros_isDigit (k : Nat) : ∀ c ∈ zeros k, c.isDigit = true := by
  intro c hc
  rw [(List.mem_replicate.mp hc).2]
  rfl

theorem digitSpan_append {digits rest : List Char} (h : ∀ c ∈ digits, c.isDigit = true)
    (hrest : ∀ c ∈ rest.head?, c.isDigit = false) : digitSpan (digits ++ rest) = (digits, rest) := by
  have htake : rest.takeWhile Char.isDigit = [] ∧ rest.dropWhile Char.isDigit = rest := by
    cases rest with
    | nil => exact ⟨rfl, rfl⟩
    | cons c rest => simp [hrest c rfl]
  rw [digitSpan, List.takeWhile_append_of_pos h, List.dropWhile_append_of_pos h, htake.1, htake.2, List.append_nil]

theorem digitSpan_self {digits : List Char} (h : ∀ c ∈ digits, c.isDigit = true) : digitSpan digits = (digits, []) := by
  rw [← List.append_nil digits, digitSpan_append h (by simp), List.append_nil]

theorem readMagnitude_whole (negative : Bool) (whole : List Char) (h : ∀ c ∈ whole, c.isDigit = true)
    (hne : whole ≠ []) : readMagnitude negative whole = some (ofDecimal negative (valueOfDigits whole) 0) := by
  simp [readMagnitude, digitSpan_self h, hne, readExponent]

theorem readMagnitude_point (negative : Bool) (whole fraction : List Char) (h : ∀ c ∈ whole, c.isDigit = true)
    (hfraction : ∀ c ∈ fraction, c.isDigit = true) (hne : whole ≠ []) :
    readMagnitude negative (whole ++ '.' :: fraction) =
      some (ofDecimal negative (valueOfDigits (whole ++ fraction)) (-fraction.length)) := by
  have hspan : digitSpan (whole ++ '.' :: fraction) = (whole, '.' :: fraction) :=
    digitSpan_append h fun c hc => by rw [← Option.mem_some.mp hc]; rfl
  simp [readMagnitude, hspan, digitSpan_self hfraction, hne, readExponent]

theorem ten_zpow_lt_least : (10 : ℚ) ^ (-330 : Int) < 1 / 2 * 2 ^ (-1074 : Int) := by
  have hnat : 2 ^ 1075 < 10 ^ 330 := by decide +kernel
  have h : (2 : ℚ) ^ 1075 < 10 ^ 330 := by exact_mod_cast hnat
  have hhalf : (1 / 2 : ℚ) * 2 ^ (-1074 : Int) = 2 ^ (-1075 : Int) := by
    rw [show (-1075 : Int) = -1 + -1074 by norm_num, two_zpow_add]
    norm_num
  rw [hhalf, zpow_neg, zpow_neg]
  exact inv_strictAnti₀ (by positivity) (by exact_mod_cast h)

theorem greatest_lt_ten_zpow : (2 : ℚ) ^ 53 * 2 ^ (971 : Int) < 10 ^ (330 : Int) := by
  have hnat : 2 ^ 53 * 2 ^ 971 < 10 ^ 330 := by decide +kernel
  have h : (2 : ℚ) ^ 53 * 2 ^ 971 < 10 ^ 330 := by exact_mod_cast hnat
  exact_mod_cast h

/-- A number in the cell of a double is read as that double. -/
theorem ofDecimal_of_roundsTo {digits m : Nat} {x e : Int} (negative : Bool) (hm : 0 < m) (hc : Canonical m e)
    (hdigits : 0 < digits) (h : RoundsTo (digits * 10 ^ x) m e) : ofDecimal negative digits x = .finite negative m e := by
  have hunit := two_zpow_pos e
  have hm' : (1 : ℚ) ≤ m := by exact_mod_cast hm
  have hlength := Nat.length_toDigits_pos (b := 10) (n := digits)
  have hsmall : ¬ ((Nat.toDigits 10 digits).length : Int) + x < -330 := by
    intro hlt
    have hupper : (digits : ℚ) < 10 ^ ((Nat.toDigits 10 digits).length : Int) := by
      rw [zpow_natCast]
      exact_mod_cast lt_ten_pow_length digits
    have hvalue : (digits : ℚ) * 10 ^ x < 10 ^ (-330 : Int) := by
      calc (digits : ℚ) * 10 ^ x < 10 ^ ((Nat.toDigits 10 digits).length : Int) * 10 ^ x :=
            mul_lt_mul_of_pos_right hupper (ten_zpow_pos x)
        _ = 10 ^ (((Nat.toDigits 10 digits).length : Int) + x) := (ten_zpow_add _ _).symm
        _ ≤ 10 ^ (-330 : Int) := ten_zpow_mono hlt.le
    have hleast : (2 : ℚ) ^ (-1074 : Int) ≤ 2 ^ e := two_zpow_mono hc.least
    have hgap := gapBelow_le m e
    have hlow : (1 / 2 : ℚ) * 2 ^ (-1074 : Int) ≤ (m - gapBelow m e) * 2 ^ e :=
      mul_le_mul (by linarith) hleast (two_zpow_pos _).le (by linarith)
    exact absurd (hlow.trans h.low) (not_le.mpr (hvalue.trans ten_zpow_lt_least))
  have hlarge : ¬ 330 < ((Nat.toDigits 10 digits).length : Int) + x := by
    intro hlt
    have hlower : (10 : ℚ) ^ (((Nat.toDigits 10 digits).length : Int) - 1) ≤ digits := by
      rw [show ((Nat.toDigits 10 digits).length : Int) - 1 = ((Nat.toDigits 10 digits).length - 1 : Nat) by omega,
        zpow_natCast]
      exact_mod_cast ten_pow_length_le hdigits
    have hvalue : (10 : ℚ) ^ (330 : Int) ≤ digits * 10 ^ x := by
      calc (10 : ℚ) ^ (330 : Int) ≤ 10 ^ (((Nat.toDigits 10 digits).length : Int) - 1 + x) := ten_zpow_mono (by omega)
        _ = 10 ^ (((Nat.toDigits 10 digits).length : Int) - 1) * 10 ^ x := ten_zpow_add _ _
        _ ≤ digits * 10 ^ x := mul_le_mul_of_nonneg_right hlower (ten_zpow_pos x).le
    have hgreatest : (2 : ℚ) ^ e ≤ 2 ^ (971 : Int) := two_zpow_mono hc.greatest
    have hm53 : (m : ℚ) + 1 ≤ 2 ^ 53 := by exact_mod_cast hc.lt
    have hhigh : (m + 1 / 2) * (2 : ℚ) ^ e ≤ 2 ^ 53 * 2 ^ (971 : Int) :=
      mul_le_mul (by linarith) hgreatest hunit.le (by norm_num)
    exact absurd (hvalue.trans (h.high.trans hhigh)) (not_le.mpr greatest_lt_ten_zpow)
  rw [ofDecimal, if_neg (by simp [hsmall, Nat.pos_iff_ne_zero.mp hdigits]), if_neg hlarge]
  split
  · rename_i hx
    obtain ⟨k, rfl⟩ := Int.eq_ofNat_of_zero_le hx
    apply ofQuotient_of_roundsTo negative (Nat.mul_pos hdigits (Nat.pow_pos (by norm_num))) Nat.one_pos hc
    simpa using h
  · rename_i hx
    obtain ⟨k, hk⟩ := Int.eq_ofNat_of_zero_le (show 0 ≤ -x by omega)
    obtain rfl : x = -k := by omega
    apply ofQuotient_of_roundsTo negative hdigits (Nat.pow_pos (by norm_num)) hc
    simpa [div_eq_mul_inv] using h

theorem dropTrailingZeros_append (digits : List Char) : ∃ k, digits = dropTrailingZeros digits ++ zeros k := by
  have hsplit := List.takeWhile_append_dropWhile (p := (· = '0')) (l := digits.reverse)
  obtain ⟨k, hk⟩ : ∃ k, digits.reverse.takeWhile (· = '0') = zeros k := by
    refine ⟨_, List.eq_replicate_of_mem fun c hc => ?_⟩
    simpa using List.mem_takeWhile_imp hc
  refine ⟨k, ?_⟩
  rw [hk] at hsplit
  rw [← List.reverse_inj, ← hsplit, List.reverse_append, dropTrailingZeros, List.reverse_reverse, zeros,
    List.reverse_replicate]

theorem ten_zpow_shift (v z : Nat) (g : Int) : (v : ℚ) * 10 ^ (g + z) = ((v * 10 ^ z : Nat) : ℚ) * 10 ^ g := by
  rw [ten_zpow_add, zpow_natCast]
  push_cast
  ring

theorem readMagnitude_positionalText {n : Nat} (negative : Bool) (g : Int) (hn : 0 < n) :
    ∃ (d : Nat) (x : Int), 0 < d ∧ (d : ℚ) * 10 ^ x = n * 10 ^ g ∧
      readMagnitude negative
        (plain.positionalText ⟨dropTrailingZeros (Nat.toDigits 10 n), g + (Nat.toDigits 10 n).length - 1⟩) =
          some (ofDecimal negative d x) := by
  have hvalue := valueOfDigits_toDigits n
  have hdigit := toDigits_isDigit n
  obtain ⟨z, hz⟩ := dropTrailingZeros_append (Nat.toDigits 10 n)
  generalize dropTrailingZeros (Nat.toDigits 10 n) = digits at *
  rw [hz] at hvalue hdigit ⊢
  rw [valueOfDigits_append_zeros] at hvalue
  rw [List.length_append, zeros, List.length_replicate]
  have hv : 0 < valueOfDigits digits := Nat.pos_of_ne_zero fun h => by simp [h] at hvalue; omega
  have hne : digits ≠ [] := by
    rintro rfl
    simp [valueOfDigits] at hv
  have hdigits : ∀ c ∈ digits, c.isDigit = true := fun c hc => hdigit c (List.mem_append_left _ hc)
  have hlength : 0 < digits.length := List.length_pos_iff.mpr hne
  rw [Layout.positionalText]
  dsimp only
  split
  · rename_i hx
    refine ⟨valueOfDigits digits, g + z, hv, by rw [ten_zpow_shift, hvalue], ?_⟩
    generalize ha : (-(g + ((digits.length + z : Nat) : Int) - 1)).toNat - 1 = a
    have hread := readMagnitude_point negative ['0'] (zeros a ++ digits) (by simp)
      (fun c hc => (List.mem_append.mp hc).elim (zeros_isDigit a c) (hdigits c)) (by simp)
    rw [show ['0'] ++ (zeros a ++ digits) = zeros (a + 1) ++ digits from rfl, valueOfDigits_zeros_append,
      List.length_append, zeros, List.length_replicate,
      show -((a + digits.length : Nat) : Int) = g + z by omega] at hread
    exact hread
  · rename_i hx
    split
    · rename_i hle
      refine ⟨valueOfDigits digits * 10 ^ (g + z).toNat, 0, Nat.mul_pos hv (Nat.pow_pos (by norm_num)), ?_, ?_⟩
      · rw [← ten_zpow_shift, zero_add, Int.toNat_of_nonneg (by omega), ten_zpow_shift, hvalue]
      · have hread := readMagnitude_whole negative (digits ++ zeros (g + z).toNat)
          (fun c hc => (List.mem_append.mp hc).elim (hdigits c) (zeros_isDigit _ c)) (by simp [hne])
        rw [valueOfDigits_append_zeros] at hread
        rw [show (g + ((digits.length + z : Nat) : Int) - 1).toNat + 1 - digits.length = (g + z).toNat by omega]
        simpa [plain] using hread
    · rename_i hlt
      refine ⟨valueOfDigits digits, g + z, hv, by rw [ten_zpow_shift, hvalue], ?_⟩
      generalize hw : (g + ((digits.length + z : Nat) : Int) - 1).toNat + 1 = w at hlt ⊢
      have hread := readMagnitude_point negative (digits.take w) (digits.drop w)
        (fun c hc => hdigits c (List.mem_of_mem_take hc)) (fun c hc => hdigits c (List.mem_of_mem_drop hc))
        (by rw [ne_eq, List.take_eq_nil_iff]; simp [hne]; omega)
      rw [List.take_append_drop, List.length_drop, show -((digits.length - w : Nat) : Int) = g + z by omega] at hread
      rw [List.append_assoc]
      exact hread

theorem toLower_of_isDigit {c : Char} (h : c.isDigit = true) : c.toLower = c := by
  refine dif_neg ?_
  simp [Char.isDigit] at h
  rintro ⟨hlow, hhigh⟩
  have := h.2
  grind

theorem first_of_readMagnitude {negative : Bool} {c : Char} {s : List Char} {x : Binary64}
    (h : readMagnitude negative (c :: s) = some x) : c.isDigit = true ∨ c = '.' := by
  by_contra hnot
  rw [not_or] at hnot
  have hspan : digitSpan (c :: s) = ([], c :: s) := by simp [digitSpan, hnot.1]
  simp [readMagnitude, hspan] at h
  split at h
  · rename_i hdot
    exact hnot.2 (List.cons.inj hdot).1
  · simp at h

theorem readChars_of_readMagnitude {negative : Bool} {s : List Char} {x : Binary64}
    (h : readMagnitude negative s = some x) : readChars (if negative then '-' :: s else s) = some x := by
  cases s with
  | nil => simp [readMagnitude, digitSpan] at h
  | cons c s =>
      have hfirst : c ≠ '-' ∧ c ≠ '+' ∧ c.toLower ≠ 'i' ∧ c.toLower ≠ 'n' := by
        rcases first_of_readMagnitude h with hc | rfl
        · rw [toLower_of_isDigit hc]
          refine ⟨?_, ?_, ?_, ?_⟩ <;> rintro rfl <;> simp at hc
        · decide
      have hsign : signSpan (if negative then '-' :: c :: s else c :: s) = (negative, c :: s) := by
        cases negative with
        | true => rfl
        | false => simp [signSpan, hfirst]
      have hword (w : String) (hw : ∀ d ∈ w.toList.head?, d = 'i' ∨ d = 'n') :
          String.ofList ((c :: s).map Char.toLower) ≠ w := by
        rintro rfl
        rw [String.toList_ofList, List.map_cons, List.head?_cons] at hw
        rcases hw _ rfl with hi | hn
        · exact hfirst.2.2.1 hi
        · exact hfirst.2.2.2 hn
      rw [readChars, hsign]
      dsimp only
      rw [if_neg, if_neg, h]
      · exact hword "nan" (by simp)
      · rw [Bool.or_eq_true, decide_eq_true_eq, decide_eq_true_eq, not_or]
        exact ⟨hword "inf" (by simp), hword "infinity" (by simp)⟩

/-- A double is written with enough digits to be read back. -/
theorem read_render {m : Nat} {e : Int} (negative : Bool) (h : Canonical m e) :
    read (plain.render (.finite negative m e)) = some (.finite negative m e) := by
  rw [read, Layout.render, String.toList_ofList]
  change readChars (if negative then '-' :: plain.positionalText (shortest m e) else _) = _
  apply readChars_of_readMagnitude
  rcases Nat.eq_zero_or_pos m with rfl | hm
  · obtain rfl : e = leastExponent := h.normal.resolve_right (by norm_num)
    cases negative <;> decide
  · obtain ⟨n, g, hround, hshortest⟩ := shortest_spec hm h
    have hn : 0 < n := by
      by_contra hzero
      obtain rfl : n = 0 := by omega
      have hlow := hround.low
      have hm' : (1 : ℚ) ≤ m := by exact_mod_cast hm
      have hpos := mul_pos (show 0 < (m : ℚ) - gapBelow m e by linarith [gapBelow_le m e]) (two_zpow_pos e)
      rw [Nat.cast_zero, zero_mul] at hlow
      linarith
    obtain ⟨d, x, hd, hvalue, hread⟩ := readMagnitude_positionalText negative g hn
    rw [hshortest, hread, ofDecimal_of_roundsTo negative hm h hd (hvalue ▸ hround)]

theorem ofDecimal_of_readMagnitude {negative : Bool} {s : List Char} {x : Binary64}
    (h : readMagnitude negative s = some x) : ∃ d k, ofDecimal negative d k = x := by
  rw [readMagnitude] at h
  dsimp only at h
  split at h <;> split at h
  · cases h
  · obtain ⟨k, -, hk⟩ := Option.bind_eq_some_iff.mp h
    exact ⟨_, _, Option.some.inj hk⟩
  · cases h
  · obtain ⟨k, -, hk⟩ := Option.bind_eq_some_iff.mp h
    exact ⟨_, _, Option.some.inj hk⟩

theorem canonical_of_read {s : String} {negative : Bool} {m : Nat} {e : Int}
    (h : read s = some (.finite negative m e)) : Canonical m e := by
  rw [read, readChars] at h
  dsimp only at h
  split at h
  · cases h
  · split at h
    · cases h
    · obtain ⟨d, k, hd⟩ := ofDecimal_of_readMagnitude h
      exact canonical_of_ofDecimal hd

theorem shortest_isDigit (m : Nat) (e : Int) : ∀ c ∈ (shortest m e).digits, c.isDigit = true := by
  intro c hc
  rw [shortest] at hc
  split at hc
  · rw [List.mem_singleton.mp hc]
    rfl
  · dsimp only at hc
    rw [dropTrailingZeros, List.mem_reverse] at hc
    exact toDigits_isDigit _ c (List.mem_reverse.mp ((List.dropWhile_suffix _).subset hc))

theorem mem_render {negative : Bool} {m : Nat} {e : Int} {c : Char}
    (h : c ∈ (plain.render (.finite negative m e)).toList) : c.isDigit = true ∨ c = '.' ∨ c = '-' := by
  have hdigit := shortest_isDigit m e
  have hzero (k : Nat) := zeros_isDigit k c
  have hsign : c = '-' ∨ c ∈ plain.positionalText (shortest m e) := by
    rw [Layout.render, String.toList_ofList] at h
    change c ∈ (if negative then '-' :: plain.positionalText (shortest m e) else plain.positionalText (shortest m e)) at h
    split at h
    · exact List.mem_cons.mp h
    · exact Or.inr h
  rcases hsign with rfl | hc
  · exact Or.inr (Or.inr rfl)
  · generalize shortest m e = x at hc hdigit
    rw [Layout.positionalText] at hc
    split at hc
    · simp only [List.cons_append, List.nil_append, List.mem_cons, List.mem_append] at hc
      rcases hc with rfl | rfl | hc | hc
      · exact Or.inl rfl
      · exact Or.inr (Or.inl rfl)
      · exact Or.inl (hzero _ hc)
      · exact Or.inl (hdigit c hc)
    · dsimp only at hc
      split at hc
      · rw [show plain.keepFraction = false from rfl] at hc
        simp only [List.mem_append, Bool.false_eq_true, if_false, List.not_mem_nil, or_false] at hc
        exact Or.inl (hc.elim (hdigit c) (hzero _))
      · simp only [List.mem_append, List.mem_singleton] at hc
        rcases hc with (hc | rfl) | hc
        · exact Or.inl (hdigit c (List.mem_of_mem_take hc))
        · exact Or.inr (Or.inl rfl)
        · exact Or.inl (hdigit c (List.mem_of_mem_drop hc))

theorem roundsTo_self (m : Nat) (e : Int) : RoundsTo (m * 2 ^ e) m e := by
  have hunit := two_zpow_pos e
  have hgap : 0 < gapBelow m e := by
    rw [gapBelow]
    split <;> norm_num
  refine ⟨?_, ?_, ?_⟩
  · nlinarith
  · nlinarith
  · rintro (h | h) <;> nlinarith

theorem readMagnitude_toDigits (negative : Bool) (n : Nat) :
    readMagnitude negative (Nat.toDigits 10 n) = some (ofDecimal negative n 0) := by
  rw [readMagnitude_whole negative _ (toDigits_isDigit n) Nat.toDigits_ne_nil, valueOfDigits_toDigits]

theorem exists_double_of_lt {n : Nat} (hn : 0 < n) (hlt : n < 2 ^ 53) :
    ∃ (m k : Nat), m = n * 2 ^ k ∧ Canonical m (-k) := by
  have hlog := Nat.log2_self_le (Nat.pos_iff_ne_zero.mp hn)
  have hlog' : n < 2 ^ (n.log2 + 1) := Nat.lt_log2_self
  have hbits : n.log2 < 53 := (Nat.log2_lt (Nat.pos_iff_ne_zero.mp hn)).mpr hlt
  obtain ⟨k, hk⟩ : ∃ k, n.log2 + k = 52 := ⟨52 - n.log2, by omega⟩
  refine ⟨n * 2 ^ k, k, rfl, ?_, ?_, ?_, Or.inr ?_⟩
  · calc n * 2 ^ k < 2 ^ (n.log2 + 1) * 2 ^ k := Nat.mul_lt_mul_of_pos_right hlog' (Nat.two_pow_pos k)
      _ = 2 ^ 53 := by rw [← Nat.pow_add, show n.log2 + 1 + k = 53 by omega]
  · rw [leastExponent]
    omega
  · rw [greatestExponent]
    omega
  · calc 2 ^ 52 = 2 ^ n.log2 * 2 ^ k := by rw [← Nat.pow_add, hk]
      _ ≤ n * 2 ^ k := Nat.mul_le_mul_right _ hlog

theorem read_toString_whole {n : Nat} (hlt : n < 2 ^ 53) :
    ∃ (m : Nat) (e : Int), read (toString n) = some (.finite false m e) ∧
      (Binary64.finite false m e).wholeSize? = some n := by
  have hread : read (toString n) = some (ofDecimal false n 0) := by
    rw [read, Nat.toString_eq_repr, Nat.repr, String.toList_ofList]
    exact readChars_of_readMagnitude (readMagnitude_toDigits false n)
  rcases Nat.eq_zero_or_pos n with rfl | hn
  · exact ⟨0, leastExponent, hread, by decide +kernel⟩
  · obtain ⟨m, k, hm, hc⟩ := exists_double_of_lt hn hlt
    have hmpos : 0 < m := by rw [hm]; exact Nat.mul_pos hn (Nat.two_pow_pos k)
    have hround : RoundsTo (n * 10 ^ (0 : Int)) m (-k) := by
      have hself := roundsTo_self m (-k)
      rw [hm] at hself
      push_cast at hself
      rw [mul_assoc, zpow_neg, zpow_natCast, mul_inv_cancel₀ (by positivity)] at hself
      simpa [hm] using hself
    refine ⟨m, -k, by rw [hread, ofDecimal_of_roundsTo false hmpos hc hn hround], ?_⟩
    have hpower : powerOfTwo (-k) = (1, 2 ^ k) := by
      rw [powerOfTwo]
      split
      · rename_i hle
        obtain rfl : k = 0 := by omega
        rfl
      · simp
    rw [wholeSize?, hpower, hm]
    simp

theorem readWhole_toString {n bound : Nat} (h : n < bound) : readWhole bound (toString n) = some n := by
  have hdigits := toDigits_isDigit n
  have hne : Nat.toDigits 10 n ≠ [] := Nat.toDigits_ne_nil
  have hvalue := valueOfDigits_toDigits n
  rw [readWhole, Nat.toString_eq_repr, Nat.repr, String.toList_ofList]
  generalize Nat.toDigits 10 n = digits at *
  cases digits with
  | nil => exact absurd rfl hne
  | cons c digits =>
      have hplus : c ≠ '+' := by
        rintro rfl
        simpa using hdigits '+' List.mem_cons_self
      simp [hplus, hvalue, h]
      simpa using hdigits

end BookCompiler.Decimal
