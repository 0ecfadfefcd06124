import BookCompiler.Proofs.Script.Balanced
import BookCompiler.Proofs.Script.ClearText
import BookCompiler.Proofs.Script.Limits
import BookCompiler.Proofs.Script.Words

namespace BookCompiler.Script

open Text

namespace JavaScript

variable {nested : List Char → Except Failure (List Token)}

theorem regexAllowed_enclosed (before : List Token) : regexAllowed (before ++ [.opener .round]) = regexAllowed before := by
  cases before with
  | nil => rfl
  | cons t before => cases t <;> rfl

theorem lexeme_enclosed (before : List Token) (c : Char) (s : List Char) :
    lexeme nested (before ++ [.opener .round]) c s =
      (lexeme nested before c s).map fun r => (r.1 ++ [.opener .round], r.2) := by
  simp only [lexeme, regexAllowed_enclosed]
  split_ifs
  · rfl
  · rfl
  · rfl
  · rfl
  · cases templateTokens nested (readTemplate 0 s) with
    | error fault => rfl
    | ok r => exact congrArg (fun tokens => Except.ok (tokens, r.2)) (List.append_assoc _ _ _).symm
  · rfl
  · rfl
  · rfl
  · rfl

theorem scan_enclosed (before : List Token) (more : Nat) (s : List Char) :
    scan (lexeme nested) (before ++ [.opener .round]) more s =
      (scan (lexeme nested) before more s).map (· ++ [.opener .round]) := by
  induction s generalizing before more with
  | nil => rfl
  | cons c s ih =>
      cases more with
      | succ more => exact ih before more
      | zero =>
          rw [scan, scan, lexeme_enclosed]
          cases lexeme nested before c s with
          | error fault => rfl
          | ok r => exact ih r.1 r.2

theorem scan_blanks {blanks : List Char} (h : ∀ c ∈ blanks, isBlank c = true) (before : List Token) (s : List Char) :
    scan (lexeme nested) before 0 (blanks ++ s) = scan (lexeme nested) before 0 s := by
  induction blanks with
  | nil => rfl
  | cons c blanks ih =>
      obtain ⟨hc, hblanks⟩ := List.forall_mem_cons.mp h
      rw [List.cons_append, scan, lexeme, if_pos hc]
      exact ih hblanks

theorem lexeme_bracket {c : Char} (h : c = '(' ∨ c = ')') (before : List Token) (s : List Char) :
    lexeme nested before c s = .ok (if c = '(' then .opener .round :: before else .closer .round :: before, 0) := by
  have hother : isBlank c = false ∧ c ≠ '/' ∧ c ≠ '"' ∧ c ≠ '\'' ∧ c ≠ '\x60' ∧ c.isDigit = false ∧
      isNameStart c = false := by
    rcases h with rfl | rfl <;> decide +kernel
  obtain ⟨hblank, hslash, hdouble, hsingle, htemplate, hdigit, hname⟩ := hother
  simp only [lexeme, hblank, hslash, hdouble, hsingle, htemplate, hdigit, hname]
  rcases h with rfl | rfl <;> rfl

theorem scan_closing {blanks : List Char} (h : ∀ c ∈ blanks, isBlank c = true) (before : List Token) (more : Nat) :
    scan (lexeme nested) before more (blanks ++ [')']) = .ok before ∨
      scan (lexeme nested) before more (blanks ++ [')']) = .ok (.closer .round :: before) := by
  rw [scan_drop]
  by_cases hmore : more ≤ blanks.length
  · right
    rw [List.drop_append_of_le_length hmore, scan_blanks fun c hc => h c (List.mem_of_mem_drop hc), scan,
      lexeme_bracket (Or.inr rfl)]
    rfl
  · left
    have hlength : (blanks ++ [')']).length = blanks.length + 1 := List.length_append
    rw [List.drop_eq_nil_of_le (by omega)]
    rfl

theorem inert_closing {blanks : List Char} (h : ∀ c ∈ blanks, isBlank c = true) : Inert (blanks ++ [')']) := by
  cases blanks with
  | nil =>
      rintro _ ⟨⟩
      decide
  | cons c blanks =>
      rintro _ ⟨⟩
      simp [isSeparator, h c List.mem_cons_self]

/-- The tokens of a text stay what they are if a closing bracket follows, which is read or ends up in a comment or a
text that the last lexeme leaves open. -/
theorem scan_append_closing {blanks : List Char} (h : ∀ c ∈ blanks, isBlank c = true) {before final : List Token}
    {more : Nat} {e : List Char} (hscan : scan (lexeme nested) before more e = .ok final) :
    scan (lexeme nested) before more (e ++ (blanks ++ [')'])) = .ok final ∨
      scan (lexeme nested) before more (e ++ (blanks ++ [')'])) = .ok (.closer .round :: final) := by
  induction e generalizing before more with
  | nil =>
      obtain rfl : before = final := Except.ok.inj (by cases more <;> exact hscan)
      exact scan_closing h before more
  | cons c e ih =>
      cases more with
      | succ more => exact ih hscan
      | zero =>
          rw [scan] at hscan
          rw [List.cons_append, scan]
          obtain ⟨⟨next, n⟩, hread, hrest⟩ := bind_ok hscan
          have halone : lexeme nested before c (e ++ []) = .ok (next, n) := by rwa [List.append_nil]
          cases lexeme_meets nested before c e with
          | stops r _ hr =>
              rw [hr _ (inert_closing h), ← hr [] inert_nil, halone]
              exact ih hrest
          | runs state hrun =>
              obtain ⟨k, hk, hreaches, -⟩ := hrun [] inert_nil
              obtain ⟨m, hm, hbeyond, -⟩ := hrun _ (inert_closing h)
              obtain ⟨rfl, rfl⟩ := Prod.mk.inj (Except.ok.inj (hk.symm.trans halone))
              have hend : scan (lexeme nested) state k e = .ok state := by
                rw [scan_drop, List.drop_eq_nil_of_le hreaches]
                rfl
              obtain rfl : state = final := Except.ok.inj (hend.symm.trans hrest)
              have hpast : scan (lexeme nested) state m (e ++ (blanks ++ [')'])) =
                  scan (lexeme nested) state (m - e.length) (blanks ++ [')']) := by
                rw [scan_drop, scan_drop state (m - e.length), List.drop_append, List.drop_eq_nil_of_le hbeyond,
                  List.nil_append]
              have hclosing := @scan_closing nested blanks h state (m - e.length)
              rw [← hpast] at hclosing
              rw [hm]
              exact hclosing
          | breaks hbreak =>
              have := hbreak [] inert_nil next n halone
              rw [List.append_nil] at this
              omega

/-- An expression in round brackets. White space may stand inside them. -/
def bracketed (opening e closing : List Char) : List Char := '(' :: (opening ++ (e ++ (closing ++ [')'])))

def templateTail (e : List Char) : List Char := '$' :: '\x7b' :: (e ++ ['\x7d', '\x60'])

theorem tokens_bracketed {limits : Limits} {opening e closing : List Char} {ts : List Token}
    (hopening : ∀ c ∈ opening, isBlank c = true) (hclosing : ∀ c ∈ closing, isBlank c = true)
    (h : tokens limits e = .ok ts) :
    ∃ post, Ends post ∧ tokens limits (bracketed opening e closing) = .ok (.opener .round :: (ts ++ post)) := by
  obtain ⟨final, hscan, rfl⟩ := map_ok h
  have hstart : tokens limits (bracketed opening e closing) =
      ((scan (lexeme fun s => tokensWithin limits.maxNesting limits.maxNesting s) [] 0 (e ++ (closing ++ [')']))).map
        (· ++ [.opener .round])).map List.reverse := by
    rw [← scan_enclosed, ← scan_blanks hopening, tokens, tokensWithin, bracketed, scan, lexeme_bracket (Or.inl rfl)]
    rfl
  rcases scan_append_closing hclosing hscan with hrest | hrest
  · refine ⟨[], .nil, ?_⟩
    rw [hstart, hrest]
    simp [Except.map]
  · refine ⟨[.closer .round], .cons [] (by simp), ?_⟩
    rw [hstart, hrest]
    simp [Except.map]

theorem readTemplate_pass (s : List Char) : readTemplate s.length (s ++ ['\x60']) = ⟨[], .ok (s.length + 1)⟩ := by
  induction s with
  | nil => rfl
  | cons c s ih =>
      rw [List.cons_append, List.length_cons, readTemplate, if_pos (Nat.succ_ne_zero _), Nat.add_sub_cancel, ih]
      rfl

theorem readTemplate_of_isOpen {e : List Char} (h : Cursor.start.IsOpen e) :
    readTemplate 0 (templateTail e) = ⟨[e], .ok (e.length + 4)⟩ ∨
      readTemplate 0 (templateTail e) = ⟨[], .error (.fault .openTemplateExpression)⟩ := by
  have hwhole := Cursor.length_append h ['\x7d', '\x60']
  have hdepth := Cursor.depth_pos h (Nat.le_refl 1)
  rw [Cursor.length_cons] at hwhole
  split_ifs at hwhole with _ hzero
  · omega
  · left
    have hpass : readTemplate (e.length + 2) ('\x7b' :: (e ++ ['\x7d', '\x60'])) = ⟨[], .ok (e.length + 3)⟩ := by
      have := readTemplate_pass ('\x7b' :: (e ++ ['\x7d']))
      simpa using this
    rw [templateTail, readTemplate_of_ok hwhole]
    simp [hpass, Template.after, Except.map]
  · right
    apply readTemplate_of_error
    rw [hwhole, (Cursor.isOpen_cons _ _ _).mpr ⟨by simp [Cursor.closes], Cursor.isOpen_nil _⟩]
    rfl

theorem readTemplate_of_length_eq_ok {e : List Char} {n : Nat} (h : Cursor.start.length e = .ok n) :
    n < e.length ∧ (readTemplate 0 (templateTail e)).expressions.head? = some (e.take n) := by
  obtain ⟨hsame, hlt⟩ := Cursor.length_append_of_ok h ['\x7d', '\x60']
  refine ⟨hlt, ?_⟩
  rw [templateTail, readTemplate_of_ok hsame, List.take_append_of_le_length (Nat.le_of_lt hlt)]
  rfl

theorem tokens_template {limits : Limits} {e : List Char} {ts all : List Token} (hopen : Cursor.start.IsOpen e)
    (h : tokens limits e = .ok ts) (hall : tokens limits ('\x60' :: templateTail e) = .ok all) :
    all = expressionTokens ts ++ [.literal] := by
  obtain ⟨final, hscan, rfl⟩ := map_ok hall
  rw [scan, lexeme_template] at hscan
  obtain ⟨⟨state, more⟩, hread, hrest⟩ := bind_ok hscan
  obtain ⟨⟨tokens, n⟩, htokens, heq⟩ := map_ok hread
  obtain ⟨rfl, rfl⟩ := Prod.mk.inj heq
  rcases readTemplate_of_isOpen hopen with htemplate | htemplate
  · rw [htemplate] at htokens
    obtain ⟨parts, hparts, htokens⟩ := bind_ok htokens
    obtain ⟨_, hn, htokens⟩ := bind_ok htokens
    cases hn
    obtain ⟨rfl, rfl⟩ := Prod.mk.inj (Except.ok.inj htokens)
    obtain ⟨part, hpart, rfl⟩ : ∃ part, tokensWithin limits.maxNesting limits.maxNesting e = .ok part ∧ parts = [part] := by
      rw [List.mapM_cons] at hparts
      obtain ⟨part, hpart, hparts⟩ := bind_ok hparts
      cases hparts
      exact ⟨part, hpart, rfl⟩
    have hsame : part = ts := by
      have hlevels : Raised (tokensWithin limits.maxNesting limits.maxNesting e) (tokens limits e) :=
        tokensWithin_raised (Nat.le_succ limits.maxNesting) e
      rcases hlevels with hraised | ⟨fault, hfault, -⟩
      · exact Except.ok.inj ((hpart.symm.trans hraised).trans h)
      · rw [hpart] at hfault
        cases hfault
    have hend : (templateTail e).drop (e.length + 4) = [] := List.drop_eq_nil_of_le (by simp [templateTail])
    dsimp only at hrest
    rw [scan_drop, hend] at hrest
    cases hrest
    simp [hsame]
  · rw [htemplate] at htokens
    cases htokens

def CurlyClosed (ts : List Token) : Prop := ∀ p ∈ ts.inits, p.count (.closer .curly) ≤ p.count (.opener .curly)

instance (ts : List Token) : Decidable (CurlyClosed ts) :=
  inferInstanceAs (Decidable (∀ p ∈ ts.inits, p.count (.closer .curly) ≤ p.count (.opener .curly)))

/-- Whether no comment and no regular expression in a text holds a brace or a quote, and no template a brace. -/
def isClearText (limits : Limits) (e : List Char) : Bool :=
  isClear (fun s => tokensWithin limits.maxNesting limits.maxNesting s) [] 0 e

theorem isOpen_of_isClearText {limits : Limits} {e : List Char} {ts : List Token} (h : tokens limits e = .ok ts)
    (hclear : isClearText limits e = true) (hclosed : CurlyClosed ts) : Cursor.start.IsOpen e := by
  obtain ⟨final, hscan, rfl⟩ := map_ok h
  refine isOpen_of_clear ⟨rfl, rfl, rfl⟩ hscan hclear fun p hp => ?_
  have hprefix := hclosed p.reverse ((List.mem_inits _ _).mpr (List.reverse_prefix.mpr hp))
  rwa [List.count_reverse, List.count_reverse] at hprefix

end JavaScript

theorem Language.freeNamesOf_template {language : Language} (hlanguage : language ≠ .python) {ts post : List Token}
    (h : Balanced ts) (hpost : JavaScript.Ends post) :
    language.freeNamesOf (JavaScript.expressionTokens ts ++ [.literal]) =
      language.freeNamesOf (.opener .round :: (ts ++ post)) := by
  cases language with
  | javascript | typescript =>
      exact (JavaScript.freeNamesOf_template _ h).trans (JavaScript.freeNamesOf_bracketed _ h hpost).symm
  | python => exact absurd rfl hlanguage

theorem Language.tokens_eq {language : Language} (hlanguage : language ≠ .python) (limits : Limits) (s : List Char) :
    language.tokens limits s = JavaScript.tokens limits s := by
  cases language with
  | javascript | typescript => rfl
  | python => exact absurd rfl hlanguage

theorem tokens_of_freeNames_ofList {limits : Limits} {tag : String} {language : Language} {script : List Char}
    {names : List String} (htag : Language.ofTag? tag = some language)
    (h : freeNames limits tag (String.ofList script) = .ok names) :
    ∃ tokens, language.tokens limits script = .ok tokens ∧ names = Name.sorted (language.freeNamesOf tokens) := by
  obtain ⟨other, hother, found, hfound, rfl⟩ := exists_of_freeNames h
  obtain rfl : language = other := Option.some.inj (htag.symm.trans hother)
  rw [String.toList_ofList] at hfound
  obtain ⟨tokens, htokens, -, rfl⟩ := Language.tokens_of_freeNames hfound
  exact ⟨tokens, htokens, rfl⟩

/-- An expression with balanced brackets in a template and in round brackets. The template's expression ends where the
search for the closing brace ends. If this is behind the whole expression, both scripts read the same names. So it is
in a text whose comments, regular expressions and templates do not mislead the search and whose curly brackets are
balanced by themselves. Else the template holds only a part of the expression. -/
theorem freeNames_template {limits : Limits} {tag : String} {language : Language}
    (htag : Language.ofTag? tag = some language) (hlanguage : language ≠ .python) {e opening closing : List Char}
    {ts : List Token} (hts : language.tokens limits e = .ok ts) (hbalanced : Balanced ts)
    (hopening : ∀ c ∈ opening, isBlank c = true) (hclosing : ∀ c ∈ closing, isBlank c = true) {inTemplate inBrackets : List String}
    (htemplate : freeNames limits tag (String.ofList ('\x60' :: JavaScript.templateTail e)) = .ok inTemplate)
    (hbrackets : freeNames limits tag (String.ofList (JavaScript.bracketed opening e closing)) = .ok inBrackets) :
    ((∀ n, JavaScript.expressionLength .code 1 false '\x7b' e ≠ .ok n) → inTemplate = inBrackets) ∧
    (JavaScript.isClearText limits e = true → JavaScript.CurlyClosed ts → inTemplate = inBrackets) ∧
    ∀ n, JavaScript.expressionLength .code 1 false '\x7b' e = .ok n →
      n < e.length ∧ (JavaScript.readTemplate 0 (JavaScript.templateTail e)).expressions.head? = some (e.take n) := by
  rw [Language.tokens_eq hlanguage] at hts
  have hsame (hopen : JavaScript.Cursor.start.IsOpen e) : inTemplate = inBrackets := by
    obtain ⟨all, hall, rfl⟩ := tokens_of_freeNames_ofList htag htemplate
    obtain ⟨all', hall', rfl⟩ := tokens_of_freeNames_ofList htag hbrackets
    rw [Language.tokens_eq hlanguage] at hall hall'
    obtain ⟨post, hpost, hbracketed⟩ := JavaScript.tokens_bracketed hopening hclosing hts
    obtain rfl := Except.ok.inj (hall'.symm.trans hbracketed)
    obtain rfl := JavaScript.tokens_template hopen hts hall
    rw [Language.freeNamesOf_template hlanguage hbalanced hpost]
  refine ⟨fun hends => ?_, fun hclear hclosed => ?_, fun n hn => JavaScript.readTemplate_of_length_eq_ok hn⟩
  · exact hsame ((JavaScript.Cursor.start.isOpen_or_ok (Nat.le_refl 1) e).resolve_right (not_exists.mpr hends))
  · exact hsame (JavaScript.isOpen_of_isClearText hts hclear hclosed)

def lookupExpression : List Char := "find(/b+/, \x7b k: \"\x7d\" \x7d.k) /* c */ + `x` + a".toList

def lookupTokens : List Token :=
  [.name "find", .opener .round, .literal, .symbol .comma, .opener .curly, .name "k", .symbol .colon, .literal,
   .closer .curly, .symbol .dot, .name "k", .closer .round, .symbol .other, .literal, .symbol .other, .name "a"]

theorem freeNames_template_lookupExpression :
    Language.javascript.tokens {} lookupExpression = .ok lookupTokens ∧ Balanced lookupTokens ∧
    JavaScript.isClearText {} lookupExpression = true ∧ JavaScript.CurlyClosed lookupTokens ∧
    ∃ names, freeNames {} "js" (String.ofList ('\x60' :: JavaScript.templateTail lookupExpression)) = .ok names ∧
      freeNames {} "js" (String.ofList (JavaScript.bracketed [' '] lookupExpression [' '])) = .ok names := by
  have htokens : Language.javascript.tokens {} lookupExpression = .ok lookupTokens := by decide +kernel
  have hbalanced : Balanced lookupTokens := by decide
  have hclear : JavaScript.isClearText {} lookupExpression = true := by decide +kernel
  have hclosed : JavaScript.CurlyClosed lookupTokens := by decide
  have htemplate : freeNames {} "js" (String.ofList ('\x60' :: JavaScript.templateTail lookupExpression)) =
      .ok ["a", "find"] := by decide +kernel
  have hbrackets : freeNames {} "js" (String.ofList (JavaScript.bracketed [' '] lookupExpression [' '])) =
      .ok ["a", "find"] := by decide +kernel
  have hblank : ∀ c ∈ [' '], isBlank c = true := List.forall_mem_singleton.mpr (by decide)
  obtain ⟨-, hsame, -⟩ := freeNames_template (by decide) (by decide) htokens hbalanced hblank hblank htemplate hbrackets
  exact ⟨htokens, hbalanced, hclear, hclosed, ["a", "find"], htemplate, (hsame hclear hclosed) ▸ hbrackets⟩

def replaceExpression : List Char := "s.replace(/\x7d/g, suffix)".toList

/-- The template's expression ends at that brace, so that a name is not found. -/
theorem replaceExpression_cut :
    (∃ ts, JavaScript.tokens {} replaceExpression = .ok ts ∧ Balanced ts) ∧
    JavaScript.expressionLength .code 1 false '\x7b' replaceExpression = .ok 11 ∧
    freeNames {} "js" (String.ofList ('\x60' :: JavaScript.templateTail replaceExpression)) = .ok ["s"] ∧
    freeNames {} "js" (String.ofList (JavaScript.bracketed [' '] replaceExpression [' '])) = .ok ["s", "suffix"] := by
  refine ⟨⟨[.name "s", .symbol .dot, .name "replace", .opener .round, .literal, .symbol .comma, .name "suffix",
    .closer .round], ?_, ?_⟩, ?_, ?_, ?_⟩
  all_goals decide +kernel

end BookCompiler.Script
