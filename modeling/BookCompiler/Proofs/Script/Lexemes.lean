import BookCompiler.Proofs.Script.Braces
import BookCompiler.Proofs.Script.Reaches
import Mathlib.Tactic.IntervalCases

namespace BookCompiler.Script

open Text

/-- A length reaches the end of `u`, and goes beyond it if `x` follows on the same line. -/
def Exceeds (u x : List Char) (n : Nat) : Prop := u.length ≤ n ∧ ∀ c s, x = c :: s → c ≠ '\n' → u.length < n

theorem Exceeds.mono {u x : List Char} {n m : Nat} (h : Exceeds u x n) (hle : n ≤ m) : Exceeds u x m :=
  ⟨Nat.le_trans h.1 hle, fun c s hx hc => Nat.lt_of_lt_of_le (h.2 c s hx hc) hle⟩

theorem Exceeds.cons {u x : List Char} {n : Nat} (h : Exceeds u x n) (c : Char) : Exceeds (c :: u) x (n + 1) := by
  refine ⟨Nat.succ_le_succ h.1, fun d s hx hd => ?_⟩
  exact Nat.succ_lt_succ (h.2 d s hx hd)

def Splits (f : List Char → Nat) (u : List Char) : Prop :=
  ((∀ x, f (u ++ x) = f u) ∧ f u ≤ u.length) ∨ ∀ x, Exceeds u x (f (u ++ x))

namespace Splits

variable {f g : List Char → Nat} {c : Char} {u : List Char}

theorem nil (h : ∀ c s, c ≠ '\n' → 0 < f (c :: s)) : Splits f [] := by
  right
  intro x
  refine ⟨Nat.zero_le _, ?_⟩
  rintro c s rfl hc
  exact h c s hc

theorem cons (h : ∀ x, f (c :: (u ++ x)) = g (u ++ x) + 1) (hg : Splits g u) : Splits f (c :: u) := by
  have hu : f (c :: u) = g u + 1 := by simpa using h []
  rcases hg with ⟨hstop, hle⟩ | hrun
  · left
    refine ⟨fun x => ?_, ?_⟩
    · rw [List.cons_append, h, hu, hstop]
    · rw [hu, List.length_cons]
      omega
  · right
    intro x
    rw [List.cons_append, h]
    exact (hrun x).cons c

theorem stop {n : Nat} (h : ∀ s, f (c :: s) = n) (hn : n ≤ 1) : Splits f (c :: u) := by
  left
  refine ⟨fun x => ?_, ?_⟩
  · rw [List.cons_append, h, h]
  · rw [h, List.length_cons]
    omega

end Splits

theorem lineLength_splits (u : List Char) : Splits (countWhile (· ≠ '\n')) u := by
  induction u with
  | nil => exact .nil fun c s hc => by simp [countWhile, hc]
  | cons c u ih =>
      by_cases hc : c = '\n'
      · exact .stop (n := 0) (fun s => by simp [countWhile, hc]) (Nat.zero_le 1)
      · exact .cons (fun s => by simp [countWhile, hc]) ih

theorem takeWhile_append {p : Char → Bool} {x : List Char} (hx : ∀ c ∈ x.head?, p c = false) (u : List Char) :
    (u ++ x).takeWhile p = u.takeWhile p := by
  have hnone : x.takeWhile p = [] := by
    cases x with
    | nil => rfl
    | cons c s => rw [List.takeWhile_cons, hx c rfl, if_neg (by decide)]
  rw [List.takeWhile_append, hnone, List.append_nil]
  split_ifs with h
  · exact ((List.takeWhile_prefix p).eq_of_length h).symm
  · rfl

namespace JavaScript

theorem stringLength_splits (quote : Char) (escaped : Bool) (u : List Char) : Splits (stringLength quote escaped) u := by
  induction u generalizing escaped with
  | nil =>
      refine .nil fun c s _ => ?_
      rw [stringLength]
      split_ifs <;> omega
  | cons c u ih =>
      by_cases hescaped : escaped = true
      · exact .cons (fun s => by rw [stringLength, if_pos hescaped]) (ih false)
      · by_cases hc : c = '\\'
        · exact .cons (fun s => by rw [stringLength, if_neg hescaped, if_pos hc]) (ih true)
        · by_cases hends : (c = '\n' || c = quote) = true
          · exact .stop (fun s => by rw [stringLength, if_neg hescaped, if_neg hc, if_pos hends]) (Nat.le_refl 1)
          · exact .cons (fun s => by rw [stringLength, if_neg hescaped, if_neg hc, if_neg hends]) (ih false)

theorem regexLength_splits (inClass escaped : Bool) (u : List Char) : Splits (regexLength inClass escaped) u := by
  induction u generalizing inClass escaped with
  | nil =>
      refine .nil fun c s _ => ?_
      rw [regexLength]
      split_ifs <;> omega
  | cons c u ih =>
      by_cases hescaped : escaped = true
      · exact .cons (fun s => by rw [regexLength, if_pos hescaped]) (ih inClass false)
      · by_cases hc : c = '\\'
        · exact .cons (fun s => by rw [regexLength, if_neg hescaped, if_pos hc]) (ih inClass true)
        · by_cases hopens : c = '['
          · exact .cons (fun s => by rw [regexLength, if_neg hescaped, if_neg hc, if_pos hopens]) (ih true false)
          · by_cases hcloses : c = ']'
            · exact .cons (fun s => by rw [regexLength, if_neg hescaped, if_neg hc, if_neg hopens, if_pos hcloses])
                (ih false false)
            · by_cases hends : ((c = '/' && !inClass) || c = '\n') = true
              · exact .stop (fun s => by
                  rw [regexLength, if_neg hescaped, if_neg hc, if_neg hopens, if_neg hcloses, if_pos hends]) (Nat.le_refl 1)
              · exact .cons (fun s => by
                  rw [regexLength, if_neg hescaped, if_neg hc, if_neg hopens, if_neg hcloses, if_neg hends])
                  (ih inClass false)

theorem blockCommentLength_pos (c : Char) (s : List Char) : 0 < blockCommentLength (c :: s) := by
  rw [blockCommentLength.eq_def]
  split <;> simp_all

theorem blockCommentLength_splits (u : List Char) : Splits blockCommentLength u := by
  induction u with
  | nil => exact .nil fun c s _ => blockCommentLength_pos c s
  | cons c u ih =>
      cases u with
      | nil =>
          -- the comment may end with a slash that stands in `x`
          right
          intro x
          refine ⟨blockCommentLength_pos c x, ?_⟩
          rintro d s rfl -
          have := blockCommentLength_pos d s
          rw [List.singleton_append, List.length_singleton, blockCommentLength.eq_def]
          split <;> simp_all
      | cons d u =>
          by_cases hends : c = '*' ∧ d = '/'
          · obtain ⟨rfl, rfl⟩ := hends
            left
            exact ⟨fun x => rfl, Nat.le_add_left 2 u.length⟩
          · refine .cons (fun x => ?_) ih
            rw [List.cons_append, blockCommentLength.eq_3]
            rintro tail rfl htail
            exact hends ⟨rfl, (List.cons.inj htail).1⟩

theorem Template.length_after {t : Template} {expressions : List (List Char)} {count n : Nat}
    (h : (t.after expressions count).length = .ok n) : ∃ m, t.length = .ok m ∧ n = m + count := by
  obtain ⟨m, hm, hn⟩ := map_ok h
  exact ⟨m, hm, hn.symm⟩

theorem length_readTemplate_gt {more n : Nat} {s : List Char} (h : (readTemplate more s).length = .ok n) :
    more < n ∧ n ≤ s.length := by
  induction s generalizing more n with
  | nil => cases h
  | cons c rest ih =>
      have hafter {m : Nat} {expressions : List (List Char)} (hm : more ≤ m + 1)
          (h : ((readTemplate m rest).after expressions 1).length = .ok n) : more < n ∧ n ≤ (c :: rest).length := by
        obtain ⟨k, hk, rfl⟩ := Template.length_after h
        have := ih hk
        rw [List.length_cons]
        omega
      rw [readTemplate] at h
      split_ifs at h with hmore
      · exact hafter (by omega) h
      · exact hafter (by omega) h
      · cases h
        rw [List.length_cons]
        omega
      · split at h
        · cases h
        · exact hafter (by omega) h
      · exact hafter (by omega) h

/-- A template literal either ends in `u`, and then nothing that follows is looked at, or it goes beyond `u`, if it
ends at all. -/
def TemplateSplits (f : List Char → Template) (u : List Char) : Prop :=
  (∃ t n, t.length = .ok n ∧ n ≤ u.length ∧ ∀ x, f (u ++ x) = t) ∨
    ∀ x n, (f (u ++ x)).length = .ok n → u.length < n

theorem TemplateSplits.after {f g : List Char → Template} {c : Char} {u : List Char} {expressions : List (List Char)}
    (h : ∀ x, f (c :: (u ++ x)) = (g (u ++ x)).after expressions 1) (hg : TemplateSplits g u) :
    TemplateSplits f (c :: u) := by
  rcases hg with ⟨t, n, hn, hle, hstop⟩ | hrun
  · left
    refine ⟨t.after expressions 1, n + 1, ?_, Nat.succ_le_succ hle, fun x => ?_⟩
    · rw [Template.after, hn]
      rfl
    · rw [List.cons_append, h, hstop]
  · right
    intro x n hn
    rw [List.cons_append, h] at hn
    obtain ⟨m, hm, rfl⟩ := Template.length_after hn
    exact Nat.succ_lt_succ (hrun x m hm)

theorem readTemplate_of_error {s : List Char} {e : Failure} (h : Cursor.start.length s = .error e) :
    readTemplate 0 ('$' :: '\x7b' :: s) = ⟨[], .error e⟩ := by
  have hlength : expressionLength .code 1 false '\x7b' s = .error e := h
  simp [readTemplate, hlength]

theorem readTemplate_of_ok {s : List Char} {n : Nat} (h : Cursor.start.length s = .ok n) :
    readTemplate 0 ('$' :: '\x7b' :: s) = (readTemplate (n + 2) ('\x7b' :: s)).after [s.take n] 1 := by
  have hlength : expressionLength .code 1 false '\x7b' s = .ok n := h
  rw [readTemplate]
  simp [hlength]

theorem readExpression_splits {u : List Char} (h : ∀ more, TemplateSplits (readTemplate more) ('\x7b' :: u)) :
    TemplateSplits (readTemplate 0) ('$' :: '\x7b' :: u) := by
  rcases Cursor.start.isOpen_or_ok (Nat.le_refl 1) u with hopen | ⟨n, hlength⟩
  · right
    intro x k hk
    rw [List.cons_append, List.cons_append] at hk
    have hwhole := Cursor.length_append hopen x
    cases hrest : (Cursor.start.after u).length x with
    | error e =>
        rw [hrest] at hwhole
        rw [readTemplate_of_error hwhole] at hk
        cases hk
    | ok n =>
        rw [hrest] at hwhole
        rw [readTemplate_of_ok hwhole] at hk
        obtain ⟨m, hm, rfl⟩ := Template.length_after hk
        have := (length_readTemplate_gt hm).1
        simp only [List.length_cons] at this ⊢
        omega
  · have hfirst (x : List Char) : readTemplate 0 ('$' :: ('\x7b' :: u ++ x)) =
        (readTemplate (n + 2) ('\x7b' :: u ++ x)).after [u.take n] 1 := by
      obtain ⟨hsame, hlt⟩ := Cursor.length_append_of_ok hlength x
      rw [List.cons_append, readTemplate_of_ok hsame, List.take_append_of_le_length (Nat.le_of_lt hlt)]
    exact .after hfirst (h (n + 2))

theorem readTemplate_splits (more : Nat) (u : List Char) : TemplateSplits (readTemplate more) u := by
  induction u generalizing more with
  | nil => exact Or.inr fun x n h => Nat.zero_lt_of_lt (length_readTemplate_gt h).1
  | cons c u ih =>
      by_cases hmore : more ≠ 0
      · exact .after (fun x => by rw [readTemplate, if_pos hmore]) (ih (more - 1))
      · by_cases hescape : c = '\\'
        · exact .after (fun x => by rw [readTemplate, if_neg hmore, if_pos hescape]) (ih 1)
        · by_cases hends : c = '\x60'
          · left
            refine ⟨⟨[], .ok 1⟩, 1, rfl, Nat.succ_le_succ (Nat.zero_le _), fun x => ?_⟩
            rw [List.cons_append, readTemplate, if_neg hmore, if_neg hescape, if_pos hends]
          · obtain rfl : more = 0 := by omega
            cases u with
            | nil =>
                right
                intro x n hn
                rw [List.singleton_append, readTemplate, if_neg hmore, if_neg hescape, if_neg hends] at hn
                have hafter {m : Nat} {expressions : List (List Char)}
                    (h : ((readTemplate m x).after expressions 1).length = .ok n) : 1 < n := by
                  obtain ⟨k, hk, rfl⟩ := Template.length_after h
                  have := (length_readTemplate_gt hk).1
                  omega
                split_ifs at hn
                · split at hn
                  · cases hn
                  · exact hafter hn
                · exact hafter hn
            | cons d u =>
                by_cases hopens : c = '$' ∧ d = '\x7b'
                · obtain ⟨rfl, rfl⟩ := hopens
                  exact readExpression_splits ih
                · have hplain (x : List Char) :
                      readTemplate 0 (c :: (d :: u ++ x)) = (readTemplate 0 (d :: u ++ x)).after [] 1 := by
                    rw [readTemplate, if_neg hmore, if_neg hescape, if_neg hends, if_neg]
                    simpa using hopens
                  exact .after hplain (ih 0)

/-- White space, quotes and closing round brackets: what begins with one of them goes on no word, number or sign. -/
def isSeparator (c : Char) : Bool := isBlank c || c = ')' || c = '"' || c = '\''

def separatorCodes : List Nat :=
  [9, 10, 11, 12, 13, 0x20, 0x22, 0x27, 0x29, 0x85, 0xa0, 0x1680, 0x2000, 0x2001, 0x2002, 0x2003, 0x2004, 0x2005,
   0x2006, 0x2007, 0x2008, 0x2009, 0x200a, 0x2028, 0x2029, 0x202f, 0x205f, 0x3000]

theorem toNat_mem_separatorCodes {c : Char} (h : isSeparator c = true) : c.toNat ∈ separatorCodes := by
  simp only [isSeparator, isBlank, Bool.or_eq_true, Bool.and_eq_true, decide_eq_true_eq, beq_iff_eq] at h
  rcases h with ((h | rfl) | rfl) | rfl
  · generalize c.toNat = n at h ⊢
    rcases h with (((((((((⟨hlow, hhigh⟩ | rfl) | rfl) | rfl) | rfl) | ⟨hlow, hhigh⟩) | rfl) | rfl) | rfl) | rfl) | rfl
    · interval_cases n <;> decide
    · decide
    · decide
    · decide
    · decide
    · interval_cases n <;> decide
    · decide
    · decide
    · decide
    · decide
    · decide
  · decide
  · decide
  · decide

theorem separator_parts {c : Char} (h : isSeparator c = true) :
    isNamePart c = false ∧ isNumberPart c = false ∧ c.isAlpha = false ∧ c ∉ ['/', '*', '.', '>'] := by
  have hall : ∀ n ∈ separatorCodes,
      isNamePart (Char.ofNat n) = false ∧ isNumberPart (Char.ofNat n) = false ∧ (Char.ofNat n).isAlpha = false ∧
        Char.ofNat n ∉ ['/', '*', '.', '>'] := by decide +kernel
  simpa only [Char.ofNat_toNat] using hall c.toNat (toNat_mem_separatorCodes h)

def Inert (x : List Char) : Prop := ∀ c ∈ x.head?, isSeparator c = true

theorem inert_nil : Inert [] := by simp [Inert]

theorem head?_append_inert {x : List Char} (hx : Inert x) (u : List Char) {c : Char} (hc : c ∈ ['/', '*', '.', '>']) :
    ((u ++ x).head? == some c) = (u.head? == some c) := by
  cases u with
  | cons d u => rfl
  | nil =>
      cases x with
      | nil => rfl
      | cons d s =>
          have hne : d ≠ c := fun h => (separator_parts (hx d rfl)).2.2.2 (h ▸ hc)
          simpa using hne

/-- How a lexeme meets the end of a text `u` that it begins in. Nothing that follows changes where it ends in `u`; or it
reaches the end of `u` with a state that nothing that follows changes; or it does not end in `u`, if it ends at all. -/
inductive Meets {σ : Type} (f : List Char → Except Failure (σ × Nat)) (u : List Char) : Prop
  | stops (r : Except Failure (σ × Nat)) (hfits : ∀ state more, r = .ok (state, more) → more ≤ u.length)
      (h : ∀ x, Inert x → f (u ++ x) = r)
  | runs (state : σ) (h : ∀ x, Inert x → ∃ more, f (u ++ x) = .ok (state, more) ∧ Exceeds u x more)
  | breaks (h : ∀ x, Inert x → ∀ state more, f (u ++ x) = .ok (state, more) → u.length < more ∧ more ≤ (u ++ x).length)

namespace Meets

variable {σ : Type} {f g : List Char → Except Failure (σ × Nat)} {u : List Char} {state : σ}

theorem congr (h : ∀ x, Inert x → f (u ++ x) = g (u ++ x)) (hg : Meets g u) : Meets f u := by
  cases hg with
  | stops r hfits hg => exact .stops r hfits fun x hx => (h x hx).trans (hg x hx)
  | runs state hg =>
      refine .runs state fun x hx => ?_
      rw [h x hx]
      exact hg x hx
  | breaks hg =>
      refine .breaks fun x hx state more hmore => ?_
      rw [h x hx] at hmore
      exact hg x hx state more hmore

theorem ite {p : List Char → Prop} [DecidablePred p] (hp : ∀ x, Inert x → (p (u ++ x) ↔ p u)) (hf : p u → Meets f u)
    (hg : ¬ p u → Meets g u) : Meets (fun s => if p s then f s else g s) u := by
  by_cases hu : p u
  · exact .congr (fun x hx => if_pos ((hp x hx).mpr hu)) (hf hu)
  · exact .congr (fun x hx => if_neg fun h => hu ((hp x hx).mp h)) (hg hu)

theorem of_splits {n : List Char → Nat} (h : Splits n u) : Meets (fun s => .ok (state, n s)) u := by
  rcases h with ⟨hstop, hle⟩ | hrun
  · refine .stops (.ok (state, n u)) ?_ fun x _ => by rw [hstop]
    rintro _ _ ⟨⟩
    exact hle
  · exact .runs state fun x _ => ⟨n (u ++ x), rfl, hrun x⟩

theorem of_inert {r : σ × Nat} (h : ∀ x, Inert x → f (u ++ x) = .ok r) (hr : r.2 ≤ u.length) : Meets f u := by
  refine .stops (.ok r) ?_ h
  rintro state more ⟨⟩
  exact hr

end Meets

theorem countWhile_le (p : Char → Bool) (s : List Char) : countWhile p s ≤ s.length := (List.takeWhile_prefix p).length_le

theorem regex_meets (before : List Token) (u : List Char) :
    Meets (fun s => .ok (Token.literal :: before, regexLength false false s +
      countWhile Char.isAlpha (s.drop (regexLength false false s)))) u := by
  rcases regexLength_splits false false u with ⟨hstop, hle⟩ | hrun
  · have hflags (x : List Char) (hx : Inert x) :
        countWhile Char.isAlpha ((u ++ x).drop (regexLength false false u)) =
          countWhile Char.isAlpha (u.drop (regexLength false false u)) := by
      rw [List.drop_append_of_le_length hle, countWhile, countWhile,
        takeWhile_append fun c hc => (separator_parts (hx c hc)).2.2.1]
    refine .of_inert (fun x hx => by rw [hstop, hflags x hx]) ?_
    have := countWhile_le Char.isAlpha (u.drop (regexLength false false u))
    rw [List.length_drop] at this
    dsimp only
    omega
  · exact .runs _ fun x _ => ⟨_, rfl, (hrun x).mono (Nat.le_add_right _ _)⟩

theorem length_of_templateTokens {nested : List Char → Except Failure (List Token)} {t : Template} {tokens : List Token}
    {more : Nat} (h : templateTokens nested t = .ok (tokens, more)) : t.length = .ok more := by
  obtain ⟨parts, -, h⟩ := bind_ok h
  obtain ⟨n, hn, h⟩ := bind_ok h
  cases h
  exact hn

theorem template_meets (nested : List Char → Except Failure (List Token)) (before : List Token) (u : List Char) :
    Meets (fun s => do
      let (tokens, more) ← templateTokens nested (readTemplate 0 s)
      pure (tokens.reverse ++ before, more)) u := by
  have hlength {t : Template} {state : List Token} {more : Nat}
      (h : (do let (tokens, more) ← templateTokens nested t; pure (tokens.reverse ++ before, more)) =
        Except.ok (state, more)) : t.length = .ok more := by
    obtain ⟨⟨tokens, n⟩, htokens, h⟩ := bind_ok h
    cases h
    exact length_of_templateTokens htokens
  rcases readTemplate_splits 0 u with ⟨t, n, hn, hle, hstop⟩ | hrun
  · refine .stops _ (fun state more hmore => ?_) fun x _ => by rw [hstop]
    obtain rfl : n = more := Except.ok.inj (hn.symm.trans (hlength hmore))
    exact hle
  · refine .breaks fun x _ state more hmore => ?_
    exact ⟨hrun x more (hlength hmore), (length_readTemplate_gt (hlength hmore)).2⟩

theorem signToken_eq (c : Char) (rest : List Char) :
    signToken c rest =
      match bracketToken? c with
      | some token => (token, 0)
      | none =>
        if c = '.' && ['.', '.'].isPrefixOf rest then (.symbol .spread, 2)
        else if c = '=' && rest.head? == some '>' then (.symbol .arrow, 1)
        else if c = '?' && rest.head? == some '.' then (.symbol .optionalDot, 1)
        else (.symbol (symbolOf c), 0) := by
  unfold signToken
  cases bracketToken? c with
  | some token => rfl
  | none =>
      dsimp only
      split
      · rfl
      · rfl
      · rfl
      · rename_i hspread harrow hoptional
        rw [if_neg, if_neg, if_neg]
        · intro h
          cases rest <;> simp_all
        · intro h
          cases rest <;> simp_all
        · intro h
          obtain ⟨rfl, hprefix⟩ := by simpa using h
          obtain ⟨tail, rfl⟩ := hprefix
          exact hspread tail rfl rfl

theorem signToken_append_inert {x : List Char} (hx : Inert x) (c : Char) (u : List Char) :
    signToken c (u ++ x) = signToken c u := by
  have hdot (d : Char) (s : List Char) (h : x = d :: s) : '.' ≠ d := by
    rintro rfl
    exact (separator_parts (hx '.' (by rw [h]; rfl))).2.2.2 (by decide)
  have hspread : ['.', '.'].isPrefixOf (u ++ x) = ['.', '.'].isPrefixOf u := by
    rcases u with - | ⟨d, - | ⟨e, u⟩⟩
    · cases x with
      | nil => rfl
      | cons d s => simp [List.isPrefixOf, hdot d s rfl]
    · cases x with
      | nil => rfl
      | cons e s => simp [List.isPrefixOf, hdot e s rfl]
    · simp [List.isPrefixOf]
  rw [signToken_eq, signToken_eq, hspread, head?_append_inert hx u (by decide), head?_append_inert hx u (by decide)]

theorem signToken_le (c : Char) (u : List Char) : (signToken c u).2 ≤ u.length := by
  unfold signToken
  split
  · exact Nat.zero_le _
  · split <;> simp

theorem sign_meets (before : List Token) (c : Char) (u : List Char) :
    Meets (fun s => let (token, more) := signToken c s; .ok (token :: before, more)) u := by
  refine .of_inert (r := ((signToken c u).1 :: before, (signToken c u).2)) (fun x hx => ?_) (signToken_le c u)
  rw [signToken_append_inert hx]

theorem lexeme_meets (nested : List Char → Except Failure (List Token)) (before : List Token) (c : Char) (u : List Char) :
    Meets (lexeme nested before c) u := by
  have hhead (d : Char) (hd : d ∈ ['/', '*', '.', '>']) (x : List Char) (hx : Inert x) :
      (c = '/' && (u ++ x).head? == some d) = true ↔ (c = '/' && u.head? == some d) = true := by
    rw [head?_append_inert hx u hd]
  have hcomment (h : (c = '/' && u.head? == some '*') = true) : Splits (fun s => blockCommentLength s.tail + 1) u := by
    cases u with
    | nil => simp at h
    | cons d u => exact .cons (fun x => rfl) (blockCommentLength_splits u)
  refine .ite (fun _ _ => .rfl) (fun _ => .of_inert (fun _ _ => rfl) (Nat.zero_le _)) fun _ => ?_
  refine .ite (hhead '/' (by decide)) (fun _ => .of_splits (lineLength_splits u)) fun _ => ?_
  refine .ite (hhead '*' (by decide)) (fun hblock => .of_splits (hcomment hblock)) fun _ => ?_
  refine .ite (fun _ _ => .rfl) (fun _ => .of_splits (stringLength_splits c false u)) fun _ => ?_
  refine .ite (fun _ _ => .rfl) (fun _ => template_meets nested before u) fun _ => ?_
  refine .ite (fun _ _ => .rfl) (fun _ => regex_meets before u) fun _ => ?_
  refine .ite (fun _ _ => .rfl) (fun _ => ?_) fun _ => .ite (fun _ _ => .rfl) (fun _ => ?_) fun _ => sign_meets before c u
  · refine .of_inert (r := (.literal :: before, countWhile isNumberPart u)) (fun x hx => ?_) (countWhile_le isNumberPart u)
    rw [countWhile, takeWhile_append fun c hc => (separator_parts (hx c hc)).2.1]
    rfl
  · refine .of_inert (r := (.name (String.ofList (c :: u.takeWhile isNamePart)) :: before, countWhile isNamePart u))
      (fun x hx => ?_) (countWhile_le isNamePart u)
    rw [countWhile, takeWhile_append fun c hc => (separator_parts (hx c hc)).1]
    rfl

end JavaScript

end BookCompiler.Script
