import BookCompiler.Proofs.Script.Lexemes
import BookCompiler.Proofs.Script.Words
import Mathlib.Data.List.Find

namespace BookCompiler.Script

open Text

def PlainIn (quote : Char) (s : List Char) : Prop := ∀ c ∈ s, c ≠ quote ∧ c ≠ '\\' ∧ c ≠ '\n'

instance (quote : Char) (s : List Char) : Decidable (PlainIn quote s) :=
  List.decidableBAll (fun c => c ≠ quote ∧ c ≠ '\\' ∧ c ≠ '\n') s

section Scan

variable {σ : Type} {lexeme : σ → Char → List Char → Except Failure (σ × Nat)}

theorem scan_quoted {state next : σ} {quote : Char} {s after : List Char}
    (hread : lexeme state quote (s ++ quote :: after) = .ok (next, s.length + 1)) :
    scan lexeme state 0 (quote :: (s ++ quote :: after)) = scan lexeme next 0 after := by
  have hpass : (s ++ quote :: after).drop (s.length + 1) = after := by simp
  calc
    scan lexeme state 0 (quote :: (s ++ quote :: after))
        = scan lexeme next (s.length + 1) (s ++ quote :: after) := by rw [scan, hread]; rfl
    _ = scan lexeme next 0 after := by rw [scan_drop, hpass]

/-- A scan that reads a text in quotes as one lexeme goes on in the same way with another text in the quotes. -/
theorem scan_exchange {start state next : σ} {quote : Char} {before after s s' : List Char}
    (h : Reaches lexeme state (quote :: (s ++ quote :: after)) start 0 (before ++ quote :: (s ++ quote :: after)))
    (hlocal : ∀ state c u next more, lexeme state c (u ++ quote :: (s ++ quote :: after)) = .ok (next, more) →
      more ≤ u.length → lexeme state c (u ++ quote :: (s' ++ quote :: after)) = .ok (next, more))
    (hread : lexeme state quote (s ++ quote :: after) = .ok (next, s.length + 1))
    (hread' : lexeme state quote (s' ++ quote :: after) = .ok (next, s'.length + 1)) :
    scan lexeme start 0 (before ++ quote :: (s ++ quote :: after)) =
      scan lexeme start 0 (before ++ quote :: (s' ++ quote :: after)) := by
  calc
    scan lexeme start 0 (before ++ quote :: (s ++ quote :: after))
        = scan lexeme state 0 (quote :: (s ++ quote :: after)) := h.scan_eq
    _ = scan lexeme next 0 after := scan_quoted hread
    _ = scan lexeme state 0 (quote :: (s' ++ quote :: after)) := (scan_quoted hread').symm
    _ = scan lexeme start 0 (before ++ quote :: (s' ++ quote :: after)) := (h.exchange hlocal).scan_eq.symm

end Scan

namespace JavaScript

variable {q : Char}

/-- Where a lexeme ends before a quote does not depend on what follows the quote. -/
theorem lexeme_exchange (hq : q = '"' ∨ q = '\'') {nested : List Char → Except Failure (List Token)}
    {before next : List Token} {c : Char} {u x : List Char} {more : Nat} (y : List Char)
    (h : lexeme nested before c (u ++ q :: x) = .ok (next, more)) (hmore : more ≤ u.length) :
    lexeme nested before c (u ++ q :: y) = .ok (next, more) := by
  have hinert (s : List Char) : Inert (q :: s) := by
    rintro _ ⟨⟩
    rcases hq with rfl | rfl <;> decide
  have hfeed : q ≠ '\n' := by rcases hq with rfl | rfl <;> decide
  cases lexeme_meets nested before c u with
  | stops r _ hr => rw [hr _ (hinert y), ← hr _ (hinert x), h]
  | runs state hrun =>
      obtain ⟨n, hn, hexceeds⟩ := hrun _ (hinert x)
      rw [h] at hn
      cases hn
      exact absurd (hexceeds.2 q x rfl hfeed) (Nat.not_lt.mpr hmore)
  | breaks hbreak => exact absurd (hbreak _ (hinert x) next more h).1 (Nat.not_lt.mpr hmore)

theorem stringLength_plain {s : List Char} (h : PlainIn q s) (t : List Char) (hq : q ≠ '\\') :
    stringLength q false (s ++ q :: t) = s.length + 1 := by
  induction s with
  | nil => simp [stringLength, hq]
  | cons c s ih =>
      obtain ⟨⟨hquote, hescape, hfeed⟩, hs⟩ := List.forall_mem_cons.mp h
      simp [stringLength, hquote, hescape, hfeed, ih hs]

theorem lexeme_string (hq : q = '"' ∨ q = '\'') (nested : List Char → Except Failure (List Token)) (before : List Token)
    {s : List Char} (h : PlainIn q s) (t : List Char) :
    lexeme nested before q (s ++ q :: t) = .ok (.literal :: before, s.length + 1) := by
  have hlength := stringLength_plain h t (by rcases hq with rfl | rfl <;> decide)
  rcases hq with rfl | rfl <;> simp [lexeme, hlength, isBlank]

end JavaScript

namespace Python

variable {q : Char}

theorem stringMark?_quote (hq : isQuote q = true) (n : Nat) (s : List Char) : stringMark? n (q :: s) = some (0, false) := by
  cases n <;> simp [stringMark?, hq]

theorem stringMark?_exchange (hq : isQuote q = true) (n : Nat) (u x y : List Char) :
    stringMark? n (u ++ q :: x) = stringMark? n (u ++ q :: y) := by
  induction u generalizing n with
  | nil => rw [List.nil_append, List.nil_append, stringMark?_quote hq, stringMark?_quote hq]
  | cons c u ih =>
      cases n with
      | zero => simp [stringMark?]
      | succ n => simp only [List.cons_append, stringMark?, ih]

theorem expressionNext_le {depth : Nat} {expression : Option Nat} {position : Nat} {c : Char} {following : Option Char}
    (h : ∀ p ∈ expression, p ≤ position) : ∀ p ∈ expressionNext depth expression position c following, p ≤ position + 1 := by
  intro p hp
  rw [expressionNext] at hp
  split_ifs at hp
  · cases hp
    exact Nat.le_succ _
  · exact Nat.le_succ_of_le (h p hp)

theorem lt_of_fieldLengths {depth : Nat} {expression : Option Nat} {position e k : Nat} {s : List Char}
    (h : fieldLengths depth expression position s = .ok (e, k)) (hexpression : ∀ p ∈ expression, p ≤ position) :
    e < k ∧ position < k := by
  induction s generalizing depth expression position with
  | nil => cases h
  | cons c s ih =>
      rw [fieldLengths_cons] at h
      split_ifs at h
      · cases h
        cases expression with
        | none => exact ⟨Nat.lt_succ_self _, Nat.lt_succ_self _⟩
        | some p => exact ⟨Nat.lt_succ_of_le (hexpression p rfl), Nat.lt_succ_self _⟩
      · exact (ih h (expressionNext_le hexpression)).imp_right Nat.lt_of_succ_lt

theorem head?_append_cons (u x y : List Char) : (u ++ q :: x).head? = (u ++ q :: y).head? := by
  cases u <;> rfl

theorem fieldLengths_exchange {depth : Nat} {expression : Option Nat} {position e k : Nat} {u x : List Char} (y : List Char)
    (h : fieldLengths depth expression position (u ++ q :: x) = .ok (e, k))
    (hexpression : ∀ p ∈ expression, p ≤ position) (hk : k ≤ position + u.length) :
    fieldLengths depth expression position (u ++ q :: y) = .ok (e, k) := by
  induction u generalizing depth expression position with
  | nil => exact absurd (lt_of_fieldLengths h hexpression).2 (Nat.not_lt.mpr hk)
  | cons c u ih =>
      rw [List.length_cons] at hk
      rw [List.cons_append, fieldLengths_cons] at h ⊢
      split_ifs at h ⊢
      · exact h
      · rw [head?_append_cons u y x]
        exact ih h (expressionNext_le hexpression) (by omega)

theorem length_readString {delimiter : List Char} {formatted : Bool} {more n : Nat} {s : List Char}
    (h : (readString delimiter formatted more s).length = .ok n) :
    n = s.length ∨ more + delimiter.length ≤ n ∨ delimiter.length = 1 ∧ more ≤ n := by
  induction s generalizing more n with
  | nil => exact Or.inl (Except.ok.inj h).symm
  | cons c rest ih =>
      have hafter {m : Nat} {expressions : List (List Char)} (hm : more ≤ m + 1)
          (h : ((readString delimiter formatted m rest).after expressions 1).length = .ok n) :
          n = (c :: rest).length ∨ more + delimiter.length ≤ n ∨ delimiter.length = 1 ∧ more ≤ n := by
        obtain ⟨k, hk, rfl⟩ := map_ok h
        have := ih hk
        rw [List.length_cons]
        omega
      rw [readString] at h
      dsimp only at h
      split_ifs at h with hmore hprefix _ hline
      · exact hafter (by omega) h
      · cases h
        exact Or.inr (Or.inl (by omega))
      · exact hafter (by omega) h
      · simp only [Bool.and_eq_true, decide_eq_true_eq] at hline
        exact Or.inr (Or.inr ⟨hline.2, by omega⟩)
      · exact hafter (by omega) h
      · split at h
        · cases h
        · exact hafter (by omega) h
      · exact hafter (by omega) h

theorem length_readString_pos {delimiter : List Char} (hdelimiter : delimiter ≠ []) (hq : isQuote q = true)
    {formatted : Bool} {more n : Nat} {x : List Char}
    (h : (readString delimiter formatted more (q :: x)).length = .ok n) : 0 < n := by
  have hafter {m : Nat} {expressions : List (List Char)}
      (h : ((readString delimiter formatted m x).after expressions 1).length = .ok n) : 0 < n := by
    obtain ⟨k, -, rfl⟩ := map_ok h
    exact Nat.succ_pos k
  have hfeed : q ≠ '\n' := by
    rintro rfl
    cases hq
  rw [readString] at h
  dsimp only at h
  split_ifs at h with _ _ _ hline
  · exact hafter h
  · cases h
    exact List.length_pos_iff.mpr hdelimiter
  · exact hafter h
  · simp [hfeed] at hline
  · exact hafter h
  · split at h
    · cases h
    · exact hafter h
  · exact hafter h

theorem isPrefixOf_append {p s : List Char} (h : p.length ≤ s.length) (x : List Char) :
    p.isPrefixOf (s ++ x) = p.isPrefixOf s := by
  rw [Bool.eq_iff_iff, List.isPrefixOf_iff_prefix, List.isPrefixOf_iff_prefix]
  exact ⟨fun hp => List.prefix_of_prefix_length_le hp (List.prefix_append s x) h, fun hp => hp.trans (List.prefix_append s x)⟩

theorem readString_exchange {delimiter : List Char} (hdelimiter : delimiter ≠ []) (hq : isQuote q = true)
    {formatted : Bool} {more n : Nat} {u x : List Char} (y : List Char)
    (h : (readString delimiter formatted more (u ++ q :: x)).length = .ok n) (hn : n ≤ u.length) :
    readString delimiter formatted more (u ++ q :: y) = readString delimiter formatted more (u ++ q :: x) := by
  induction u generalizing more n with
  | nil => exact absurd (length_readString_pos hdelimiter hq h) (Nat.not_lt.mpr hn)
  | cons c u ih =>
      have hfits : delimiter.length ≤ (c :: u).length := by
        have := length_readString h
        simp only [List.length_append, List.length_cons] at this hn ⊢
        omega
      have hprefix (s : List Char) : delimiter.isPrefixOf (c :: (u ++ q :: s)) = delimiter.isPrefixOf (c :: u) :=
        isPrefixOf_append hfits (q :: s)
      have hafter {m : Nat} {expressions : List (List Char)}
          (h : ((readString delimiter formatted m (u ++ q :: x)).after expressions 1).length = .ok n) :
          readString delimiter formatted m (u ++ q :: y) = readString delimiter formatted m (u ++ q :: x) := by
        obtain ⟨k, hk, rfl⟩ := map_ok h
        exact ih hk (Nat.le_of_succ_le_succ hn)
      rw [List.cons_append, readString, hprefix, head?_append_cons u x y] at h
      rw [List.cons_append, readString, List.cons_append, readString, hprefix, hprefix, head?_append_cons u x y]
      dsimp only at h ⊢
      split_ifs at h ⊢
      · rw [hafter h]
      · rfl
      · rw [hafter h]
      · rfl
      · rw [hafter h]
      · cases hfield : fieldLengths 1 none 0 (u ++ q :: x) with
        | error cause =>
            rw [hfield] at h
            cases h
        | ok field =>
            obtain ⟨e, k⟩ := field
            rw [hfield] at h
            have hk : k ≤ u.length := by
              obtain ⟨m, hm, rfl⟩ := map_ok h
              have := length_readString hm
              simp only [List.length_append, List.length_cons] at this hn
              omega
            have hstart : ∀ p ∈ (none : Option Nat), p ≤ 0 := by simp
            have he := (lt_of_fieldLengths hfield hstart).1
            rw [fieldLengths_exchange y hfield hstart (by omega)]
            dsimp only
            rw [hafter h, List.take_append_of_le_length (by omega), List.take_append_of_le_length (by omega)]
      · rw [hafter h]

theorem delimiterOf_length (quote : Char) (s : List Char) :
    (delimiterOf quote s).length = 1 ∨ (delimiterOf quote s).length = 3 := by
  rw [delimiterOf]
  split_ifs
  · exact Or.inr rfl
  · exact Or.inl rfl

theorem delimiterOf_exchange (quote c : Char) (u x y : List Char) :
    delimiterOf quote (c :: u ++ q :: y) = delimiterOf quote (c :: u ++ q :: x) := by
  cases u <;> simp [delimiterOf]

theorem stringTokens_exchange (hq : isQuote q = true) {nested : List Char → Except Failure (List Token)} {formatted : Bool}
    {quote : Char} {u x : List Char} {tokens : List Token} {length : Nat} (y : List Char)
    (h : stringTokens nested formatted (quote :: (u ++ q :: x)) = .ok (tokens, length)) (hlength : length ≤ u.length + 1) :
    stringTokens nested formatted (quote :: (u ++ q :: y)) = .ok (tokens, length) := by
  obtain ⟨parts, -, hbody⟩ := bind_ok h
  obtain ⟨n, hn, hpair⟩ := bind_ok hbody
  obtain ⟨-, rfl⟩ := Prod.mk.inj (Except.ok.inj hpair)
  have hsize := delimiterOf_length quote (u ++ q :: x)
  have hsome : delimiterOf quote (u ++ q :: x) ≠ [] := fun hnil => by simp [hnil] at hsize
  have hdrop (s : List Char) : (u ++ q :: s).drop ((delimiterOf quote (u ++ q :: x)).length - 1) =
      u.drop ((delimiterOf quote (u ++ q :: x)).length - 1) ++ q :: s :=
    List.drop_append_of_le_length (by omega)
  rw [hdrop] at hn
  have hfits : n ≤ (u.drop ((delimiterOf quote (u ++ q :: x)).length - 1)).length := by
    rw [List.length_drop]
    omega
  have hdelimiter : delimiterOf quote (u ++ q :: y) = delimiterOf quote (u ++ q :: x) := by
    cases u with
    | nil =>
        rw [List.drop_nil] at hn hfits
        exact absurd (length_readString_pos hsome hq hn) (Nat.not_lt.mpr hfits)
    | cons c u => exact delimiterOf_exchange quote c u x y
  rw [← h, stringTokens, stringTokens, hdelimiter, hdrop, hdrop, readString_exchange hsome hq y hn hfits]

theorem stringTokens_pos {nested : List Char → Except Failure (List Token)} {formatted : Bool} {quote : Char}
    {rest : List Char} {tokens : List Token} {length : Nat}
    (h : stringTokens nested formatted (quote :: rest) = .ok (tokens, length)) : 0 < length := by
  obtain ⟨parts, -, h⟩ := bind_ok h
  obtain ⟨n, -, h⟩ := bind_ok h
  obtain ⟨-, rfl⟩ := Prod.mk.inj (Except.ok.inj h)
  have := delimiterOf_length quote rest
  omega

theorem isPrefixOf_sign (hq : isQuote q = true) {sign : List Char × Symbol} (hsign : sign ∈ longSigns)
    (u x : List Char) : sign.1.isPrefixOf (u ++ q :: x) = sign.1.isPrefixOf u := by
  have hall : ∀ sign ∈ longSigns, '"' ∉ sign.1 ∧ '\'' ∉ sign.1 := by decide
  have hmem : q ∉ sign.1 := by
    simp only [isQuote, Bool.or_eq_true, decide_eq_true_eq] at hq
    rcases hq with rfl | rfl
    · exact (hall sign hsign).1
    · exact (hall sign hsign).2
  rw [Bool.eq_iff_iff, List.isPrefixOf_iff_prefix, List.isPrefixOf_iff_prefix]
  refine ⟨fun h => ?_, fun h => h.trans (List.prefix_append u _)⟩
  have hquoted : u ++ [q] <+: u ++ q :: x := (List.prefix_append_right_inj u).mpr ⟨x, rfl⟩
  rcases List.prefix_or_prefix_of_prefix h hquoted with h | h
  · rcases List.prefix_concat_iff.mp h with h | h
    · exact absurd (h ▸ List.mem_concat_self) hmem
    · exact h
  · exact absurd (h.subset List.mem_concat_self) hmem

theorem sign_exchange (hq : isQuote q = true) (state : State) (c : Char) (u x y : List Char) :
    state.sign c (u ++ q :: x) = state.sign c (u ++ q :: y) := by
  have hfind : longSigns.find? (fun sign => sign.1.isPrefixOf (c :: (u ++ q :: x))) =
      longSigns.find? fun sign => sign.1.isPrefixOf (c :: (u ++ q :: y)) := by
    refine List.find?_congr fun sign hsign => ?_
    exact (isPrefixOf_sign hq hsign (c :: u) x).trans (isPrefixOf_sign hq hsign (c :: u) y).symm
  simp only [State.sign, hfind]

theorem lexeme_comment (nested : List Char → Except Failure (List Token)) (state : State) (s : List Char) :
    lexeme nested state '#' s = .ok (state, countWhile (· ≠ '\n') s) := by
  simp [lexeme, isBlank]

theorem lexeme_exchange (hq : isQuote q = true) {nested : List Char → Except Failure (List Token)}
    {state next : State} {c : Char} {u x : List Char} {more : Nat} (y : List Char)
    (h : lexeme nested state c (u ++ q :: x) = .ok (next, more)) (hmore : more ≤ u.length) :
    lexeme nested state c (u ++ q :: y) = .ok (next, more) := by
  have hmark : stringMark? 2 (c :: (u ++ q :: y)) = stringMark? 2 (c :: (u ++ q :: x)) :=
    stringMark?_exchange hq 2 (c :: u) y x
  cases hstring : stringMark? 2 (c :: (u ++ q :: x)) with
  | some mark =>
      obtain ⟨letters, formatted⟩ := mark
      rw [lexeme_of_stringMark? hstring] at h
      rw [lexeme_of_stringMark? (hmark.trans hstring)]
      obtain ⟨⟨tokens, length⟩, htokens, heq⟩ := map_ok h
      obtain ⟨rfl, rfl⟩ := Prod.mk.inj heq
      have hpos : 0 < length := by
        obtain ⟨quote, rest, -, hdrop⟩ := drop_stringMark? hstring
        rw [hdrop] at htokens
        exact stringTokens_pos htokens
      have hletters : letters ≤ (c :: u).length := by
        rw [List.length_cons]
        omega
      have hdrop (s : List Char) : (c :: (u ++ q :: s)).drop letters = (c :: u).drop letters ++ q :: s := by
        rw [← List.cons_append, List.drop_append_of_le_length hletters]
      have hlength : ((c :: u).drop letters).length = u.length + 1 - letters := List.length_drop
      rw [hdrop] at htokens
      rw [hdrop]
      cases hu : (c :: u).drop letters with
      | nil =>
          rw [hu, List.length_nil] at hlength
          omega
      | cons quote w =>
          rw [hu, List.length_cons] at hlength
          rw [hu] at htokens
          rw [List.cons_append, stringTokens_exchange hq y htokens (by omega)]
          rfl
  | none =>
      by_cases hc : c = '#'
      · subst hc
        have hfeed : q ≠ '\n' := by
          rintro rfl
          cases hq
        rw [lexeme_comment] at h ⊢
        cases h
        rcases lineLength_splits u with ⟨hstop, -⟩ | hrun
        · rw [hstop, hstop]
        · exact absurd ((hrun (q :: x)).2 q x rfl hfeed) (Nat.not_lt.mpr hmore)
      · have hpart : isNamePart q = false ∧ isNumberPart q = false := by
          simp only [isQuote, Bool.or_eq_true, decide_eq_true_eq] at hq
          rcases hq with rfl | rfl <;> decide +kernel
        have hword (s : List Char) : (u ++ q :: s).takeWhile isNamePart = u.takeWhile isNamePart :=
          takeWhile_append (by rintro _ ⟨⟩; exact hpart.1) u
        have hnumber (s : List Char) : (u ++ q :: s).takeWhile isNumberPart = u.takeWhile isNumberPart :=
          takeWhile_append (by rintro _ ⟨⟩; exact hpart.2) u
        rw [← h]
        simp only [lexeme, head?_append_cons u y x, hmark, hstring, hc, if_false, countWhile, hword, hnumber,
          sign_exchange hq state c u x y]

theorem readString_plain {s : List Char} (h : PlainIn q s) (t : List Char) :
    readString [q] false 0 (s ++ q :: t) = ⟨[], .ok (s.length + 1)⟩ := by
  induction s with
  | nil => simp [readString]
  | cons c s ih =>
      obtain ⟨⟨hquote, hescape, hfeed⟩, hs⟩ := List.forall_mem_cons.mp h
      have hstep : readString [q] false 0 (c :: (s ++ q :: t)) = (readString [q] false 0 (s ++ q :: t)).after [] 1 := by
        simp [readString, Ne.symm hquote, hescape, hfeed]
      rw [List.cons_append, hstep, ih hs]
      rfl

theorem lexeme_string (hq : isQuote q = true) (nested : List Char → Except Failure (List Token)) (state : State)
    {s : List Char} (h : PlainIn q s) (hs : s ≠ []) (t : List Char) :
    lexeme nested state q (s ++ q :: t) = .ok (state.push .literal, s.length + 1) := by
  have hdelimiter : delimiterOf q (s ++ q :: t) = [q] := by
    cases s with
    | nil => exact absurd rfl hs
    | cons c s =>
        have hc : q ≠ c := (h c List.mem_cons_self).1.symm
        simp [delimiterOf, hc]
  have hbody : readString [q] false 0 ((s ++ q :: t).drop ([q].length - 1)) = ⟨[], .ok (s.length + 1)⟩ :=
    readString_plain h t
  rw [lexeme_of_stringMark? (stringMark?_quote hq 2 _), List.drop_zero, stringTokens, hdelimiter, hbody]
  simp [Except.map, pure, Except.pure, bind, Except.bind, State.push]

end Python

namespace Language

/-- The outermost lexer of a script stands before a text, at the top of its loop. -/
def StandsAt (language : Language) (limits : Limits) (script text : List Char) : Prop :=
  match language with
  | javascript | typescript =>
    ∃ before, JavaScript.Stands limits.maxNesting limits.maxNesting script before text
  | python => ∃ state, Python.Stands limits.maxNesting limits.maxNesting script state text

variable {language : Language} {limits : Limits} {quote : Char} {before after s s' : List Char}

theorem tokens_exchange (hquote : quote = '"' ∨ quote = '\'') (hs : PlainIn quote s) (hs' : PlainIn quote s') (hne : s ≠ [])
    (hne' : s' ≠ [])
    (h : language.StandsAt limits (before ++ quote :: (s ++ quote :: after)) (quote :: (s ++ quote :: after))) :
    language.tokens limits (before ++ quote :: (s ++ quote :: after)) =
      language.tokens limits (before ++ quote :: (s' ++ quote :: after)) := by
  cases language with
  | javascript | typescript =>
      obtain ⟨state, h⟩ := h
      have hscan := scan_exchange h (fun _ _ _ _ _ => JavaScript.lexeme_exchange hquote _)
        (JavaScript.lexeme_string hquote _ state hs after) (JavaScript.lexeme_string hquote _ state hs' after)
      exact congrArg (Except.map List.reverse) hscan
  | python =>
      obtain ⟨state, h⟩ := h
      have hq : Python.isQuote quote = true := by simpa [Python.isQuote] using hquote
      have hscan := scan_exchange h (fun _ _ _ _ _ => Python.lexeme_exchange hq _)
        (Python.lexeme_string hq _ state hs hne after) (Python.lexeme_string hq _ state hs' hne' after)
      exact congrArg (Except.map fun state => state.before.reverse) hscan

theorem freeNames_congr {script script' : List Char} (h : language.tokens limits script = language.tokens limits script') :
    language.freeNames limits script = language.freeNames limits script' := by
  rw [freeNames_eq, freeNames_eq, h]

end Language

/-- The text of a string never influences the names that a script reads: where the lexer stands at the opening quote,
any two texts without that quote, an escape or the end of a line give the same names or the same fault. -/
theorem freeNames_string {limits : Limits} {tag : String} {language : Language} (htag : Language.ofTag? tag = some language)
    {quote : Char} (hquote : quote = '"' ∨ quote = '\'') {before after s s' : List Char} (hs : PlainIn quote s)
    (hs' : PlainIn quote s') (hne : s ≠ []) (hne' : s' ≠ [])
    (hstands : language.StandsAt limits (before ++ quote :: (s ++ quote :: after)) (quote :: (s ++ quote :: after))) :
    freeNames limits tag (String.ofList (before ++ quote :: (s ++ quote :: after))) =
      freeNames limits tag (String.ofList (before ++ quote :: (s' ++ quote :: after))) := by
  have htokens := Language.tokens_exchange hquote hs hs' hne hne' hstands
  simp only [freeNames, htag, String.toList_ofList]
  rw [Language.freeNames_congr htokens]

def callScript (text : String) : List Char := ['f', '('] ++ '"' :: (text.toList ++ '"' :: [',', 'a', ')'])

theorem freeNames_string_callScript :
    Language.typescript.StandsAt {} (callScript "/* it's") ((callScript "/* it's").drop 2) ∧
    freeNames {} "ts" (String.ofList (callScript "/* it's")) = freeNames {} "ts" (String.ofList (callScript "`$\x7bb")) ∧
    freeNames {} "ts" (String.ofList (callScript "`$\x7bb")) = .ok ["a", "f"] := by
  have hname : JavaScript.lexeme (fun e => JavaScript.tokensWithin 32 32 e) [] 'f' ((callScript "/* it's").drop 1) =
      .ok ([.name "f"], 0) := by decide +kernel
  have hbracket : JavaScript.lexeme (fun e => JavaScript.tokensWithin 32 32 e) [.name "f"] '('
      ((callScript "/* it's").drop 2) = .ok ([.opener .round, .name "f"], 0) := by decide +kernel
  have hstands : Language.typescript.StandsAt {} (callScript "/* it's") ((callScript "/* it's").drop 2) :=
    ⟨_, .read hname (.read hbracket .here)⟩
  exact ⟨hstands, freeNames_string (by decide) (Or.inl rfl) (by decide) (by decide) (by decide) (by decide) hstands,
    by decide +kernel⟩

end BookCompiler.Script
