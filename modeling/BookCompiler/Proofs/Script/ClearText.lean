import BookCompiler.Proofs.Script.Lexemes
import Mathlib.Data.List.TakeWhile

namespace BookCompiler.Script

open Text

namespace JavaScript

variable {nested : List Char → Except Failure (List Token)}

theorem lexeme_template (before : List Token) (s : List Char) :
    lexeme nested before '\x60' s =
      (templateTokens nested (readTemplate 0 s)).map fun r => (r.1.reverse ++ before, r.2) := by
  simp only [lexeme]
  cases templateTokens nested (readTemplate 0 s) <;> rfl

def marks : List Char := ['\x7b', '\x7d', '\x60', '"', '\'']

/-- Whether a lexeme holds nothing that the search takes for something else: a comment or a regular expression no mark,
and a template no brace. -/
def isClearLexeme (c : Char) (further : List Char) : Bool :=
  (c ≠ '/' || further.all (!marks.contains ·)) && (c ≠ '\x60' || further.all fun d => d ≠ '\x7b' && d ≠ '\x7d')

def isClear (nested : List Char → Except Failure (List Token)) (before : List Token) : (more : Nat) → List Char → Bool
  | _, [] => true
  | more + 1, _ :: rest => isClear nested before more rest
  | 0, c :: rest =>
    match lexeme nested before c rest with
    | .error _ => true
    | .ok (next, more) => isClearLexeme c (rest.take more) && isClear nested next more rest

theorem isClear_drop (before : List Token) (more : Nat) (s : List Char) :
    isClear nested before more s = isClear nested before 0 (s.drop more) := by
  induction s generalizing more with
  | nil => cases more <;> rfl
  | cons c s ih =>
      cases more with
      | zero => rfl
      | succ more => exact ih more

theorem isClear_cons {before next : List Token} {c : Char} {rest : List Char} {more : Nat}
    (hread : lexeme nested before c rest = .ok (next, more)) (h : isClear nested before 0 (c :: rest) = true) :
    isClearLexeme c (rest.take more) = true ∧ isClear nested next 0 (rest.drop more) = true := by
  have hstep : isClear nested before 0 (c :: rest) =
      match lexeme nested before c rest with
      | .error _ => true
      | .ok (next, more) => isClearLexeme c (rest.take more) && isClear nested next more rest := rfl
  rw [hstep, hread] at h
  dsimp only at h
  rwa [Bool.and_eq_true, isClear_drop] at h

/-- The search stands outside texts, and counts the curly brackets among the tokens. -/
structure Tracks (k : Cursor) (before : List Token) : Prop where
  mode : k.mode = .code
  escaped : k.escaped = false
  depth : k.depth + before.count (.closer .curly) = before.count (.opener .curly) + 1

namespace Cursor

theorem IsOpen.append {k : Cursor} {p s : List Char} (hp : k.IsOpen p) (hs : (k.after p).IsOpen s) :
    k.IsOpen (p ++ s) := by
  rw [IsOpen, length_append hp, hs]
  rfl

theorem IsOpen.cons {k j : Cursor} {c : Char} {s : List Char} (hc : k.closes c = false) (hj : k.next c = j)
    (hs : j.IsOpen s) : k.IsOpen (c :: s) := by
  rw [isOpen_cons, hc, hj]
  exact ⟨nofun, hs⟩

theorem after_cons {k j : Cursor} {c : Char} (hj : k.next c = j) (s : List Char) : k.after (c :: s) = j.after s := by
  rw [← hj]
  rfl

/-- The search is outside texts again, with as many braces open as before. -/
structure Returns (k j : Cursor) : Prop where
  mode : j.mode = .code
  escaped : j.escaped = false
  depth : j.depth = k.depth

theorem Returns.cons {k j : Cursor} {c : Char} {s : List Char} (hj : k.next c = j) (hdepth : j.depth = k.depth)
    (h : Returns j (j.after s)) : Returns k (k.after (c :: s)) := by
  rw [after_cons hj]
  exact ⟨h.mode, h.escaped, h.depth.trans hdepth⟩

theorem length_take_stringLength {k : Cursor} {quote : Char} (hmode : k.mode = .quoted quote) (s : List Char) :
    k.IsOpen (s.take (stringLength quote k.escaped s)) ∧
      (s.length ≤ stringLength quote k.escaped s ∨ Returns k (k.after (s.take (stringLength quote k.escaped s)))) := by
  induction s generalizing k with
  | nil => exact ⟨rfl, Or.inl (Nat.le_refl 0)⟩
  | cons c s ih =>
      have hcloses : k.closes c = false := by simp [closes, hmode]
      have hstep {j : Cursor} (hj : k.next c = j) (hquoted : j.mode = .quoted quote) (hdepth : j.depth = k.depth)
          (hlength : stringLength quote k.escaped (c :: s) = stringLength quote j.escaped s + 1) :
          k.IsOpen ((c :: s).take (stringLength quote k.escaped (c :: s))) ∧
            ((c :: s).length ≤ stringLength quote k.escaped (c :: s) ∨
              Returns k (k.after ((c :: s).take (stringLength quote k.escaped (c :: s))))) := by
        obtain ⟨hnone, hend⟩ := ih hquoted
        rw [hlength, List.take_succ_cons, List.length_cons]
        exact ⟨IsOpen.cons hcloses hj hnone, hend.imp Nat.succ_le_succ (Returns.cons hj hdepth)⟩
      by_cases hescaped : k.escaped = true
      · have hnext : k.next c = { k with escaped := false, previous := c } := by rw [next, if_pos hescaped]
        exact hstep hnext hmode rfl (by rw [stringLength, if_pos hescaped])
      · by_cases hc : c = '\\'
        · have hnext : k.next c = { k with escaped := true, previous := c } := by simp [next, hescaped, hmode, hc]
          exact hstep hnext hmode rfl (by rw [stringLength, if_neg hescaped, if_pos hc])
        · have hnext : k.next c = ⟨k.modeAfter c, k.depth, false, c⟩ := by simp [next, hescaped, hmode, hc, hcloses]
          by_cases hends : (c = '\n' || c = quote) = true
          · have hlength : stringLength quote k.escaped (c :: s) = 1 := by
              rw [stringLength, if_neg hescaped, if_neg hc, if_pos hends]
            rw [hlength, List.take_succ_cons, List.take_zero]
            refine ⟨IsOpen.cons hcloses rfl rfl, Or.inr ?_⟩
            have hafter : k.after [c] = ⟨.code, k.depth, false, c⟩ := by
              change k.next c = _
              rw [hnext, modeAfter, hmode]
              dsimp only
              rw [if_pos hends]
            rw [hafter]
            exact ⟨rfl, rfl, rfl⟩
          · refine hstep hnext ?_ rfl (by rw [stringLength, if_neg hescaped, if_neg hc, if_neg hends])
            rw [modeAfter, hmode]
            dsimp only
            rw [if_neg hends]

theorem length_take_template {k : Cursor} (hmode : k.mode = .template 0) {more n : Nat} (hmore : more = if k.escaped then 1 else 0)
    {s : List Char} (hn : (readTemplate more s).length = .ok n) (hs : ∀ d ∈ s.take n, d ≠ '\x7b' ∧ d ≠ '\x7d') :
    (readTemplate more s).expressions = [] ∧ k.IsOpen (s.take n) ∧ Returns k (k.after (s.take n)) := by
  induction s generalizing k more n with
  | nil => cases hn
  | cons c s ih =>
      have hcloses : k.closes c = false := by simp [closes, hmode]
      have hstep {j : Cursor} {m : Nat} (hj : k.next c = j) (htemplate : j.mode = .template 0) (hdepth : j.depth = k.depth)
          (hm : m = if j.escaped then 1 else 0) (hread : readTemplate more (c :: s) = (readTemplate m s).after [] 1) :
          (readTemplate more (c :: s)).expressions = [] ∧ k.IsOpen ((c :: s).take n) ∧
            Returns k (k.after ((c :: s).take n)) := by
        rw [hread] at hn
        obtain ⟨n, hlength, rfl⟩ := Template.length_after hn
        obtain ⟨hexpressions, hnone, hreturns⟩ :=
          ih htemplate hm hlength fun d hd => hs d (List.mem_cons_of_mem c hd)
        rw [List.take_succ_cons, hread]
        exact ⟨hexpressions, IsOpen.cons hcloses hj hnone, .cons hj hdepth hreturns⟩
      by_cases hescaped : k.escaped = true
      · obtain rfl : more = 1 := by rw [hmore, if_pos hescaped]
        have hnext : k.next c = { k with escaped := false, previous := c } := by rw [next, if_pos hescaped]
        exact hstep hnext hmode rfl rfl rfl
      · obtain rfl : more = 0 := by rw [hmore, if_neg hescaped]
        by_cases hc : c = '\\'
        · have hnext : k.next c = { k with escaped := true, previous := c } := by simp [next, hescaped, hmode, hc]
          exact hstep hnext hmode rfl rfl (by simp [readTemplate, hc])
        · have hnext : k.next c = ⟨k.modeAfter c, k.depth, false, c⟩ := by simp [next, hescaped, hmode, hc, hcloses]
          by_cases hends : c = '\x60'
          · have hread : readTemplate 0 (c :: s) = ⟨[], .ok 1⟩ := by simp [readTemplate, hends]
            rw [hread] at hn
            obtain rfl : 1 = n := Except.ok.inj hn
            have hafter : k.after [c] = ⟨.code, k.depth, false, c⟩ := by
              change k.next c = _
              rw [hnext, modeAfter, hmode]
              simp [hends]
            rw [hread, List.take_succ_cons, List.take_zero, hafter]
            exact ⟨rfl, IsOpen.cons hcloses rfl rfl, rfl, rfl, rfl⟩
          · have hpos : 0 < n := Nat.zero_lt_of_lt (length_readTemplate_gt hn).1
            have hbrace := hs c (by rw [← Nat.sub_add_cancel hpos, List.take_succ_cons]; exact List.mem_cons_self)
            have hopens : ¬ (c = '$' && s.head? == some '\x7b') = true := by
              intro hopens
              rw [readTemplate, if_neg (by decide), if_neg hc, if_neg hends, if_pos hopens] at hn
              split at hn
              · cases hn
              · obtain ⟨m, hm, rfl⟩ := Template.length_after hn
                have hlong := (length_readTemplate_gt hm).1
                simp only [Bool.and_eq_true, beq_iff_eq] at hopens
                obtain ⟨r, rfl⟩ := List.head?_eq_some_iff.mp hopens.2
                refine (hs '\x7b' ?_).1 rfl
                rw [List.take_succ_cons, ← Nat.sub_add_cancel (Nat.one_le_of_lt hlong), List.take_succ_cons]
                simp
            refine hstep hnext ?_ rfl rfl (by simp [readTemplate, hc, hends, hopens])
            rw [modeAfter, hmode]
            simp [hbrace, hends]

end Cursor

theorem not_mem_marks {c : Char} {p : Char → Bool} (hp : marks.all (!p ·) = true) (h : p c = true) : c ∉ marks := by
  intro hc
  have hno := List.all_eq_true.mp hp c hc
  rw [h] at hno
  cases hno

namespace Tracks

variable {k : Cursor} {before : List Token} {c : Char} {s : List Char}

theorem plain (hk : Tracks k before) (hs : ∀ c ∈ s, c ∉ marks) : k.IsOpen s ∧ Tracks (k.after s) before := by
  induction s generalizing k with
  | nil => exact ⟨rfl, hk⟩
  | cons c s ih =>
      obtain ⟨hc, hs⟩ := List.forall_mem_cons.mp hs
      simp only [marks, List.mem_cons, List.not_mem_nil, or_false, not_or] at hc
      obtain ⟨hopen, hclose, htick, hdouble, hsingle⟩ := hc
      have hcloses : k.closes c = false := by simp [Cursor.closes, hclose]
      have hnext : k.next c = ⟨.code, k.depth, false, c⟩ := by
        simp [Cursor.next, Cursor.modeAfter, hk.mode, hk.escaped, hcloses, hopen, htick, hdouble, hsingle]
      have hstill : Tracks (k.next c) before := by
        rw [hnext]
        exact ⟨rfl, rfl, hk.depth⟩
      obtain ⟨hnone, hafter⟩ := ih hstill hs
      exact ⟨Cursor.IsOpen.cons hcloses rfl hnone, hafter⟩

theorem of_returns {j : Cursor} (hk : Tracks k before) (h : Cursor.Returns k j) : Tracks j (.literal :: before) := by
  refine ⟨h.mode, h.escaped, ?_⟩
  rw [h.depth]
  simpa using hk.depth

theorem bracket (hk : Tracks k before) {token : Token} (hc : bracketToken? c = some token)
    (hclosed : (token :: before).count (.closer .curly) ≤ (token :: before).count (.opener .curly)) :
    k.IsOpen [c] ∧ Tracks (k.next c) (token :: before) := by
  have hdepth := hk.depth
  by_cases hopen : c = '\x7b'
  · subst hopen
    cases hc
    have hnext : k.next '\x7b' = ⟨.code, k.depth + 1, false, '\x7b'⟩ := by
      simp [Cursor.next, Cursor.modeAfter, Cursor.closes, hk.mode, hk.escaped]
    rw [hnext]
    refine ⟨Cursor.IsOpen.cons (by simp [Cursor.closes]) rfl rfl, rfl, rfl, ?_⟩
    rw [List.count_cons_of_ne (by decide), List.count_cons_self]
    dsimp only
    omega
  · by_cases hclose : c = '\x7d'
    · subst hclose
      cases hc
      have hnext : k.next '\x7d' = ⟨.code, k.depth - 1, false, '\x7d'⟩ := by
        simp [Cursor.next, Cursor.modeAfter, Cursor.closes, hk.mode, hk.escaped]
      rw [List.count_cons_self, List.count_cons_of_ne (by decide)] at hclosed
      rw [hnext]
      refine ⟨?_, rfl, rfl, ?_⟩
      · refine (Cursor.isOpen_cons _ _ _).mpr ⟨fun hends => ?_, Cursor.isOpen_nil _⟩
        have := hends.2
        omega
      · rw [List.count_cons_self, List.count_cons_of_ne (by decide)]
        dsimp only
        omega
    · have hplain : ∀ d ∈ [c], d ∉ marks := by
        rw [bracketToken?] at hc
        split_ifs at hc <;> simp_all [marks]
      obtain ⟨hnone, hafter⟩ := hk.plain hplain
      refine ⟨hnone, hafter.mode, hafter.escaped, ?_⟩
      have hcount : (token :: before).count (.closer .curly) = before.count (.closer .curly) ∧
          (token :: before).count (.opener .curly) = before.count (.opener .curly) := by
        rw [bracketToken?] at hc
        split_ifs at hc <;> cases hc <;> simp
      rw [hcount.1, hcount.2]
      exact hafter.depth

theorem push (hk : Tracks k before) {token : Token} (hcloser : token ≠ .closer .curly) (hopener : token ≠ .opener .curly) :
    Tracks k (token :: before) := by
  refine ⟨hk.mode, hk.escaped, ?_⟩
  rw [List.count_cons_of_ne hcloser, List.count_cons_of_ne hopener]
  exact hk.depth

theorem opens_text (hk : Tracks k before) {mode : ExpressionMode} (hmode : k.modeAfter c = mode) (hc : k.closes c = false)
    (hopen : c ≠ '\x7b') : k.next c = ⟨mode, k.depth, false, c⟩ := by
  simp [Cursor.next, hmode, hk.mode, hk.escaped, hc, hopen]

theorem string (hk : Tracks k before) (hc : c = '"' ∨ c = '\'') (rest : List Char) :
    k.IsOpen (c :: rest.take (stringLength c false rest)) ∧
      (rest.length ≤ stringLength c false rest ∨
        Tracks (k.after (c :: rest.take (stringLength c false rest))) (.literal :: before)) := by
  have hcloses : k.closes c = false := by rcases hc with rfl | rfl <;> simp [Cursor.closes]
  have hnext : k.next c = ⟨.quoted c, k.depth, false, c⟩ := by
    refine hk.opens_text ?_ hcloses ?_
    · rcases hc with rfl | rfl <;> simp [Cursor.modeAfter, hk.mode]
    · rcases hc with rfl | rfl <;> decide
  obtain ⟨hnone, hend⟩ := @Cursor.length_take_stringLength ⟨.quoted c, k.depth, false, c⟩ c rfl rest
  refine ⟨Cursor.IsOpen.cons hcloses hnext hnone, hend.imp_right fun hreturns => ?_⟩
  exact hk.of_returns (.cons hnext rfl hreturns)

theorem template (hk : Tracks k before) {rest : List Char} {n : Nat} (hn : (readTemplate 0 rest).length = .ok n)
    (hclear : ∀ d ∈ rest.take n, d ≠ '\x7b' ∧ d ≠ '\x7d') :
    (readTemplate 0 rest).expressions = [] ∧ k.IsOpen ('\x60' :: rest.take n) ∧
      Tracks (k.after ('\x60' :: rest.take n)) (.literal :: before) := by
  have hcloses : k.closes '\x60' = false := by simp [Cursor.closes]
  have hnext : k.next '\x60' = ⟨.template 0, k.depth, false, '\x60'⟩ :=
    hk.opens_text (by simp [Cursor.modeAfter, hk.mode]) hcloses (by decide)
  obtain ⟨hexpressions, hnone, hreturns⟩ :=
    @Cursor.length_take_template ⟨.template 0, k.depth, false, '\x60'⟩ rfl 0 n rfl rest hn hclear
  exact ⟨hexpressions, Cursor.IsOpen.cons hcloses hnext hnone, hk.of_returns (.cons hnext rfl hreturns)⟩

end Tracks

theorem mem_take_countWhile {p : Char → Bool} {s : List Char} {d : Char} (h : d ∈ s.take (countWhile p s)) : p d = true := by
  rw [countWhile, ← List.prefix_iff_eq_take.mp (List.takeWhile_prefix p)] at h
  exact List.mem_takeWhile_imp h

theorem signToken_of_bracketToken?_eq_none {c : Char} (h : bracketToken? c = none) (rest : List Char) :
    (∃ sign, (signToken c rest).1 = .symbol sign) ∧ ∀ d ∈ rest.take (signToken c rest).2, d = '.' ∨ d = '>' := by
  unfold signToken
  rw [h]
  dsimp only
  split <;> simp

theorem Tracks.sign {k : Cursor} {before : List Token} {c : Char} (hk : Tracks k before)
    (hc : c ≠ '\x60' ∧ c ≠ '"' ∧ c ≠ '\'') (rest : List Char)
    (hclosed : ((signToken c rest).1 :: before).count (.closer .curly) ≤
      ((signToken c rest).1 :: before).count (.opener .curly)) :
    k.IsOpen (c :: rest.take (signToken c rest).2) ∧
      Tracks (k.after (c :: rest.take (signToken c rest).2)) ((signToken c rest).1 :: before) := by
  cases hbracket : bracketToken? c with
  | some token =>
      have hsign : signToken c rest = (token, 0) := by rw [signToken_eq, hbracket]
      rw [hsign] at hclosed ⊢
      exact hk.bracket hbracket hclosed
  | none =>
      obtain ⟨⟨sign, hsign⟩, htail⟩ := signToken_of_bracketToken?_eq_none hbracket rest
      have hplain : ∀ d ∈ c :: rest.take (signToken c rest).2, d ∉ marks := by
        refine List.forall_mem_cons.mpr ⟨fun hmem => ?_, fun d hd => ?_⟩
        · simp only [marks, List.mem_cons, List.not_mem_nil, or_false] at hmem
          rcases hmem with rfl | rfl | rfl | rfl | rfl <;> simp_all [bracketToken?]
        · rcases htail d hd with rfl | rfl <;> decide
      obtain ⟨hnone, hafter⟩ := hk.plain hplain
      rw [hsign]
      exact ⟨hnone, hafter.push nofun nofun⟩

/-- One lexeme: the search passes over it as well, and goes on outside texts, unless the text has ended. -/
theorem lexeme_tracks {k : Cursor} {before next : List Token} {c : Char} {rest : List Char} {more : Nat}
    (hk : Tracks k before) (hread : lexeme nested before c rest = .ok (next, more))
    (hclear : isClearLexeme c (rest.take more) = true) (hclosed : next.count (.closer .curly) ≤ next.count (.opener .curly)) :
    k.IsOpen (c :: rest.take more) ∧ (rest.length ≤ more ∨ Tracks (k.after (c :: rest.take more)) next) := by
  have hslash (hc : c = '/') : ∀ d ∈ rest.take more, d ∉ marks := by simpa [isClearLexeme, hc] using hclear
  have htick (hc : c = '\x60') : ∀ d ∈ rest.take more, d ≠ '\x7b' ∧ d ≠ '\x7d' := by
    simpa [isClearLexeme, hc] using hclear
  have hplain (hc : c ∉ marks) (hrest : ∀ d ∈ rest.take more, d ∉ marks)
      (hnext : next = before ∨ ∃ token, token ≠ .closer .curly ∧ token ≠ .opener .curly ∧ next = token :: before) :
      k.IsOpen (c :: rest.take more) ∧ (rest.length ≤ more ∨ Tracks (k.after (c :: rest.take more)) next) := by
    obtain ⟨hnone, hafter⟩ := hk.plain (List.forall_mem_cons.mpr ⟨hc, hrest⟩)
    refine ⟨hnone, Or.inr ?_⟩
    rcases hnext with rfl | ⟨token, hcloser, hopener, rfl⟩
    · exact hafter
    · exact hafter.push hcloser hopener
  have hnoslash (hc : c = '/') : c ∉ marks := by
    rw [hc]
    decide
  by_cases htemplate : c = '\x60'
  · subst htemplate
    rw [lexeme_template] at hread
    obtain ⟨⟨tokens, n⟩, htokens, heq⟩ := map_ok hread
    obtain ⟨rfl, rfl⟩ := Prod.mk.inj heq
    obtain ⟨hexpressions, hnone, htracks⟩ := hk.template (length_of_templateTokens htokens) (htick rfl)
    obtain ⟨parts, hparts, htokens⟩ := bind_ok htokens
    obtain ⟨_, -, htokens⟩ := bind_ok htokens
    rw [hexpressions] at hparts
    cases hparts
    cases htokens
    exact ⟨hnone, Or.inr htracks⟩
  rw [lexeme, if_neg htemplate] at hread
  split_ifs at hread with hblank hline hblock hquote hregex hdigit hname
  · cases hread
    exact hplain (not_mem_marks (by decide) hblank) (by simp) (Or.inl rfl)
  · cases hread
    have hc : c = '/' := by simp_all
    exact hplain (hnoslash hc) (hslash hc) (Or.inl rfl)
  · cases hread
    have hc : c = '/' := by simp_all
    exact hplain (hnoslash hc) (hslash hc) (Or.inl rfl)
  · cases hread
    exact hk.string (by simpa using hquote) rest
  · cases hread
    have hc : c = '/' := by simp_all
    exact hplain (hnoslash hc) (hslash hc) (Or.inr ⟨.literal, nofun, nofun, rfl⟩)
  · cases hread
    refine hplain (not_mem_marks (by decide) hdigit) (fun d hd => ?_)
      (Or.inr ⟨.literal, nofun, nofun, rfl⟩)
    exact not_mem_marks (by decide +kernel) (mem_take_countWhile hd)
  · cases hread
    refine hplain (not_mem_marks (by decide +kernel) hname) (fun d hd => ?_)
      (Or.inr ⟨.name _, nofun, nofun, rfl⟩)
    exact not_mem_marks (by decide +kernel) (mem_take_countWhile hd)
  · obtain ⟨rfl, rfl⟩ := Prod.mk.inj (Except.ok.inj hread)
    simp only [Bool.or_eq_true, decide_eq_true_eq, not_or] at hquote
    exact (hk.sign ⟨htemplate, hquote⟩ rest hclosed).imp_right Or.inr

theorem lexeme_suffix (before : List Token) (c : Char) (rest : List Char) :
    Ensures (lexeme nested before c rest) fun r => before <:+ r.1 := by
  have hpush (t : Token) : before <:+ t :: before := List.suffix_cons t before
  refine .ite (fun _ => .ok List.suffix_rfl) fun _ => .ite (fun _ => .ok List.suffix_rfl) fun _ => ?_
  refine .ite (fun _ => .ok List.suffix_rfl) fun _ => .ite (fun _ => .ok (hpush _)) fun _ => ?_
  refine .ite (fun _ => .andThen fun _ => .ok (List.suffix_append _ _)) fun _ => .ite (fun _ => .ok (hpush _)) fun _ => ?_
  exact .ite (fun _ => .ok (hpush _)) fun _ => .ite (fun _ => .ok (hpush _)) fun _ => .ok (hpush _)

theorem scan_suffix {before final : List Token} {more : Nat} {s : List Char}
    (h : scan (lexeme nested) before more s = .ok final) : before <:+ final :=
  scan_ensures_reached (I := (before <:+ ·)) (fun _ c rest _ hbefore r hr => hbefore.trans (lexeme_suffix _ c rest r hr))
    List.suffix_rfl final h

theorem isOpen_of_clear {k : Cursor} {before final : List Token} {s : List Char} (hk : Tracks k before)
    (hscan : scan (lexeme nested) before 0 s = .ok final) (hclear : isClear nested before 0 s = true)
    (hclosed : ∀ p, p <:+ final → p.count (.closer .curly) ≤ p.count (.opener .curly)) : k.IsOpen s := by
  induction hsize : s.length using Nat.strong_induction_on generalizing k before s with
  | _ size ih =>
      cases s with
      | nil => rfl
      | cons c rest =>
          rw [scan] at hscan
          obtain ⟨⟨next, more⟩, hread, hrest⟩ := bind_ok hscan
          obtain ⟨hlexeme, hclear⟩ := isClear_cons hread hclear
          obtain ⟨hnone, hend⟩ := lexeme_tracks hk hread hlexeme (hclosed next (scan_suffix hrest))
          have hsplit : c :: rest = (c :: rest.take more) ++ rest.drop more := by
            rw [List.cons_append, List.take_append_drop]
          rw [hsplit]
          refine hnone.append ?_
          by_cases hmore : rest.length ≤ more
          · rw [List.drop_eq_nil_of_le hmore]
            rfl
          · have htracks := hend.resolve_left hmore
            dsimp only at hrest
            rw [scan_drop] at hrest
            refine ih _ ?_ htracks hrest hclear rfl
            rw [← hsize, List.length_drop, List.length_cons]
            omega

end JavaScript

end BookCompiler.Script
