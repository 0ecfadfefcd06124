import BookCompiler.Proofs.Script.Faults

namespace BookCompiler.Script

namespace Python

/-- Where the body of a string in these quotes ends: before its closing quotes, or with the line. -/
def EndsString (delimiter : List Char) (c : Char) (rest : List Char) : Prop :=
  delimiter <+: c :: rest ∨ c = '\n' ∧ delimiter.length = 1

/-- How many characters go with one in a format string: the one after a backslash, the second of two braces, and those
of a replacement field up to its closing brace. -/
inductive Carries : Char → List Char → Nat → Prop
  | escape {s : List Char} : Carries '\\' s 1
  | doubled {s : List Char} (h : s.head? = some '\x7b') : Carries '\x7b' s 1
  | field {s : List Char} {n : Nat} (hsingle : s.head? ≠ some '\x7b') (hend : fieldEnd (closingBrace 1 s) = .ok n) :
      Carries '\x7b' s n
  | plain {c : Char} {s : List Char} (hescape : c ≠ '\\') (hopen : c ≠ '\x7b') : Carries c s 0

/-- The body of a format string has a replacement field that begins with this text. -/
inductive FieldAt (delimiter field : List Char) : (more : Nat) → List Char → Prop
  | here (hinside : ¬ EndsString delimiter '\x7b' field) (hsingle : field.head? ≠ some '\x7b') :
      FieldAt delimiter field 0 ('\x7b' :: field)
  | pass {more : Nat} {c : Char} {s : List Char} (h : FieldAt delimiter field more s) :
      FieldAt delimiter field (more + 1) (c :: s)
  | read {n : Nat} {c : Char} {s : List Char} (hinside : ¬ EndsString delimiter c s) (hcarries : Carries c s n)
      (h : FieldAt delimiter field n s) : FieldAt delimiter field 0 (c :: s)

variable {delimiter : List Char}

theorem readString_field_error {field : List Char} {e : Failure} (hinside : ¬ EndsString delimiter '\x7b' field)
    (hsingle : field.head? ≠ some '\x7b') (h : fieldLengths 1 none 0 field = .error e) :
    (readString delimiter true 0 ('\x7b' :: field)).length = .error e := by
  obtain ⟨hquotes, -⟩ := not_or.mp hinside
  simp [readString, hquotes, hsingle, h]

theorem readString_of_carries {c : Char} {s : List Char} {n : Nat} (hinside : ¬ EndsString delimiter c s)
    (h : Carries c s n) :
    (readString delimiter true 0 (c :: s)).length = (readString delimiter true n s).length.map (· + 1) := by
  obtain ⟨hquotes, hline⟩ := not_or.mp hinside
  cases h with
  | escape => simp [readString, hquotes, StringBody.after]
  | doubled h => simp [readString, hquotes, h, StringBody.after]
  | field hsingle hend =>
      obtain ⟨⟨expression, field⟩, hlengths, rfl⟩ := map_ok ((map_snd_fieldLengths s).trans hend)
      simp [readString, hquotes, hsingle, hlengths, StringBody.after]
  | plain hescape hopen => simp [readString, hquotes, hescape, hopen, hline, StringBody.after]

theorem readString_crash_cases {c : Char} {s : List Char}
    (h : (readString delimiter true 0 (c :: s)).length = .error .crash) : ¬ EndsString delimiter c s ∧
      (c = '\x7b' ∧ s.head? ≠ some '\x7b' ∧ fieldLengths 1 none 0 s = .error .crash ∨
        ∃ n, Carries c s n ∧ (readString delimiter true n s).length = .error .crash) := by
  have hinside : ¬ EndsString delimiter c s := by
    rintro (hquotes | ⟨rfl, hline⟩)
    · simp [readString, hquotes] at h
    · simp only [readString, hline] at h
      split_ifs at h <;> simp_all
  have hcarries {n : Nat} (hn : Carries c s n) :
      ∃ n, Carries c s n ∧ (readString delimiter true n s).length = .error .crash := by
    rw [readString_of_carries hinside hn, map_eq_error_iff] at h
    exact ⟨n, hn, h⟩
  refine ⟨hinside, ?_⟩
  by_cases hopen : c = '\x7b'
  · subst hopen
    by_cases hdoubled : s.head? = some '\x7b'
    · exact Or.inr (hcarries (.doubled hdoubled))
    · cases hlengths : fieldLengths 1 none 0 s with
      | error e =>
          rw [readString_field_error hinside hdoubled hlengths] at h
          exact Or.inl ⟨rfl, hdoubled, congrArg _ (Except.error.inj h)⟩
      | ok lengths =>
          have hend : fieldEnd (closingBrace 1 s) = .ok lengths.2 := by
            rw [← map_snd_fieldLengths, hlengths]
            rfl
          exact Or.inr (hcarries (.field hdoubled hend))
  · by_cases hescape : c = '\\'
    · subst hescape
      exact Or.inr (hcarries .escape)
    · exact Or.inr (hcarries (.plain hescape hopen))

theorem readString_crash_iff {more : Nat} {s : List Char} : (readString delimiter true more s).length = .error .crash ↔
    ∃ field n, FieldAt delimiter field more s ∧ closingBrace 1 field = some (n, 0) := by
  constructor
  · intro h
    induction s generalizing more with
    | nil => cases h
    | cons c s ih =>
        cases more with
        | succ more =>
            simp only [readString, StringBody.after] at h
            obtain ⟨field, n, hfield, hclose⟩ := ih (map_eq_error_iff.mp h)
            exact ⟨field, n, .pass hfield, hclose⟩
        | zero =>
            obtain ⟨hinside, ⟨rfl, hsingle, hcrash⟩ | ⟨m, hcarries, hcrash⟩⟩ := readString_crash_cases h
            · obtain ⟨n, hclose⟩ := (fieldLengths_eq_crash_iff s).mp hcrash
              exact ⟨s, n, .here hinside hsingle, hclose⟩
            · obtain ⟨field, n, hfield, hclose⟩ := ih hcrash
              exact ⟨field, n, .read hinside hcarries hfield, hclose⟩
  · rintro ⟨field, n, hfield, hclose⟩
    induction hfield with
    | here hinside hsingle =>
        exact readString_field_error hinside hsingle ((fieldLengths_eq_crash_iff field).mpr ⟨n, hclose⟩)
    | pass _ ih => exact map_eq_error_iff.mpr ih
    | read hinside hcarries _ ih =>
        rw [readString_of_carries hinside hcarries, ih]
        rfl

theorem exists_readString_unformatted (delimiter : List Char) (more : Nat) (s : List Char) :
    ∃ n, (readString delimiter false more s).length = .ok n := by
  induction s generalizing more with
  | nil => exact ⟨0, rfl⟩
  | cons c s ih =>
      have hrest (m : Nat) : ∃ n, (readString delimiter false m s).length.map (· + 1) = .ok n := by
        obtain ⟨n, hn⟩ := ih m
        exact ⟨n + 1, by rw [hn]; rfl⟩
      simp only [readString, Bool.and_false, Bool.false_eq_true, if_false]
      split_ifs
      · exact hrest _
      · exact ⟨_, rfl⟩
      · exact hrest _
      · exact ⟨0, rfl⟩
      · exact hrest _

/-- The string at the start of a text is a format string with this replacement field. -/
def StringField (t field : List Char) : Prop :=
  ∃ quote rest, t = quote :: rest ∧
    FieldAt (delimiterOf quote rest) field 0 (rest.drop ((delimiterOf quote rest).length - 1))

theorem stringTokens_crash_iff {nested : List Char → Except Failure (List Token)} {formatted : Bool} {t : List Char} :
    stringTokens nested formatted t = .error .crash ↔
      (∃ before e after, stringExpressions formatted t = before ++ e :: after ∧
        (∀ b ∈ before, ∃ tokens, nested b = .ok tokens) ∧ nested e = .error .crash) ∨
      formatted = true ∧ (∀ e ∈ stringExpressions formatted t, ∃ tokens, nested e = .ok tokens) ∧
        ∃ field n, StringField t field ∧ closingBrace 1 field = some (n, 0) := by
  cases t with
  | nil => simp [stringTokens, stringExpressions, StringField]
  | cons quote rest =>
      rw [stringTokens, bind_eq_error_iff, mapM_eq_error_iff]
      refine or_congr Iff.rfl ?_
      rw [← exists_mapM_ok_iff]
      constructor
      · rintro ⟨tokens, htokens, h⟩
        rcases bind_eq_error_iff.mp h with hcrash | ⟨length, -, h⟩
        · cases formatted with
          | false =>
              obtain ⟨n, hn⟩ := exists_readString_unformatted (delimiterOf quote rest) 0
                (rest.drop ((delimiterOf quote rest).length - 1))
              cases hcrash.symm.trans hn
          | true =>
              obtain ⟨field, n, hfield, hclose⟩ := readString_crash_iff.mp hcrash
              exact ⟨rfl, ⟨tokens, htokens⟩, field, n, ⟨quote, rest, rfl, hfield⟩, hclose⟩
        · cases h
      · rintro ⟨rfl, ⟨tokens, htokens⟩, field, n, ⟨_, _, hstring, hfield⟩, hclose⟩
        cases hstring
        refine ⟨tokens, htokens, bind_eq_error_iff.mpr (Or.inl ?_)⟩
        exact readString_crash_iff.mpr ⟨field, n, hfield, hclose⟩

theorem lexeme_crash_iff {nested : List Char → Except Failure (List Token)} {state : State} {c : Char}
    {rest : List Char} : lexeme nested state c rest = .error .crash ↔
      ∃ letters formatted, stringMark? 2 (c :: rest) = some (letters, formatted) ∧
        stringTokens nested formatted ((c :: rest).drop letters) = .error .crash := by
  cases hmark : stringMark? 2 (c :: rest) with
  | some mark =>
      obtain ⟨letters, formatted⟩ := mark
      rw [lexeme_of_stringMark? hmark, map_eq_error_iff]
      constructor
      · intro h
        exact ⟨letters, formatted, rfl, h⟩
      · rintro ⟨_, _, ⟨⟩, h⟩
        exact h
  | none =>
      have hnone : FailsAs (lexeme nested state c rest) fun _ => False := by
        rw [lexeme, hmark]
        exact .ite (.ok _) (.ite (.ok _) (.ite (.ok _) (.ite (.ok _) (.ite (.ok _) (.ite (.ok _) (.ok _))))))
      simpa using hnone .crash

/-- The lexer comes to a replacement field whose closing brace finds no bracket open, in the script or in an expression
of a format string in it. The expressions before the field are read. -/
inductive ComesToOverclosed (limit : Nat) : (levels : Nat) → List Char → Prop
  | field {levels letters n : Nat} {s t field : List Char} {state : State} (h : Stands limit levels s state t)
      (hmark : stringMark? 2 t = some (letters, true)) (hfield : StringField (t.drop letters) field)
      (hbefore : ∀ e ∈ stringExpressions true (t.drop letters), ∃ tokens, tokensWithin limit levels e = .ok tokens)
      (hclose : closingBrace 1 field = some (n, 0)) : ComesToOverclosed limit (levels + 1) s
  | inside {levels letters : Nat} {s t e : List Char} {before after : List (List Char)} {state : State}
      {formatted : Bool} (h : Stands limit levels s state t) (hmark : stringMark? 2 t = some (letters, formatted))
      (hexpressions : stringExpressions formatted (t.drop letters) = before ++ e :: after)
      (hbefore : ∀ b ∈ before, ∃ tokens, tokensWithin limit levels b = .ok tokens)
      (he : ComesToOverclosed limit levels e) : ComesToOverclosed limit (levels + 1) s

theorem Stands.crash {limit levels letters : Nat} {s t : List Char} {state : State} {formatted : Bool}
    (h : Stands limit levels s state t) (hmark : stringMark? 2 t = some (letters, formatted))
    (hstring : stringTokens (fun e => tokensWithin limit levels e) formatted (t.drop letters) = .error .crash) :
    tokensWithin limit (levels + 1) s = .error .crash := by
  cases t with
  | nil => cases hmark
  | cons c rest =>
      rw [tokensWithin, map_eq_error_iff]
      exact scan_eq_error_iff.mpr ⟨state, c, rest, h, lexeme_crash_iff.mpr ⟨letters, formatted, hmark, hstring⟩⟩

theorem tokensWithin_crash_iff {limit levels : Nat} {s : List Char} :
    tokensWithin limit levels s = .error .crash ↔ ComesToOverclosed limit levels s := by
  constructor
  · intro h
    induction levels generalizing s with
    | zero => cases h
    | succ levels ih =>
        rw [tokensWithin, map_eq_error_iff] at h
        obtain ⟨state, c, rest, hstands, hlexeme⟩ := scan_eq_error_iff.mp h
        obtain ⟨letters, formatted, hmark, hstring⟩ := lexeme_crash_iff.mp hlexeme
        rcases stringTokens_crash_iff.mp hstring with ⟨_, _, _, heq, hbefore, he⟩ | ⟨rfl, hbefore, _, _, hfield, hclose⟩
        · exact .inside hstands hmark heq hbefore (ih he)
        · exact .field hstands hmark hfield hbefore hclose
  · intro h
    induction h with
    | field hstands hmark hfield hbefore hclose =>
        exact hstands.crash hmark (stringTokens_crash_iff.mpr (Or.inr ⟨rfl, hbefore, _, _, hfield, hclose⟩))
    | inside hstands hmark heq hbefore _ ih =>
        exact hstands.crash hmark (stringTokens_crash_iff.mpr (Or.inl ⟨_, _, _, heq, hbefore, ih⟩))

theorem FieldAt.suffix {field s : List Char} {more : Nat} (h : FieldAt delimiter field more s) :
    '\x7b' :: field <:+ s := by
  induction h with
  | here => exact List.suffix_rfl
  | pass _ ih | read _ _ _ ih => exact ih.trans (List.suffix_cons _ _)

theorem StringField.suffix {t field : List Char} (h : StringField t field) : '\x7b' :: field <:+ t := by
  obtain ⟨quote, rest, rfl, hfield⟩ := h
  exact hfield.suffix.trans ((List.drop_suffix _ rest).trans (List.suffix_cons quote rest))

theorem ComesToOverclosed.overclosed {limit levels : Nat} {s : List Char} (h : ComesToOverclosed limit levels s) :
    Overclosed s := by
  induction h with
  | field hstands _ hfield _ hclose =>
      obtain ⟨p, hp⟩ := hfield.suffix.trans ((List.drop_suffix _ _).trans hstands.suffix)
      exact ⟨p, _, _, hp.symm, hclose⟩
  | inside hstands _ heq _ _ ih =>
      have hmem := heq ▸ List.mem_append_right _ List.mem_cons_self
      have hexpression := (isInfix_of_mem_stringExpressions hmem).trans (List.drop_suffix _ _).isInfix
      exact ih.mono (hexpression.trans hstands.suffix.isInfix)

theorem freeNames_crash_iff {limits : Limits} {s : List Char} :
    freeNames limits s = .error .crash ↔ ComesToOverclosed limits.maxNesting (limits.maxNesting + 1) s := by
  rw [← tokensWithin_crash_iff, freeNames, bind_eq_error_iff]
  refine or_iff_left ?_
  rintro ⟨tokens, -, h⟩
  rcases bind_eq_error_iff.mp h with h | ⟨_, -, h⟩
  · obtain ⟨cause, hcause, -⟩ := checkIdentifiers_failsAs limits tokens _ h
    cases hcause
  · cases h

end Python

theorem freeNames_crash_iff (limits : Limits) (language : Language) (script : String) :
    freeNames limits language.name script = .error .crash ↔
      language = .python ∧ Python.ComesToOverclosed limits.maxNesting (limits.maxNesting + 1) script.toList := by
  have hjavascript (typed : Bool) : JavaScript.freeNames limits typed script.toList ≠ .error .crash := by
    intro h
    obtain ⟨cause, hcause, -⟩ := JavaScript.freeNames_failsAs limits typed _ _ h
    cases hcause
  rw [freeNames, language.ofTag?_name, map_eq_error_iff]
  cases language with
  | javascript => exact iff_of_false (hjavascript false) (by simp)
  | typescript => exact iff_of_false (hjavascript true) (by simp)
  | python => exact Python.freeNames_crash_iff.trans (by simp)

/-- The counters of open brackets. In a template expression at least one brace is open as long as the expression has not
ended. In a replacement field the counter goes below zero if and only if no bracket is open before the closing brace,
since round and square brackets may have closed the field's own; all other fields end behind that brace. So an analysis
crashes if and only if its lexer comes to such a field of a format string. Otherwise it finds names, or refuses the
script for what stands in it. -/
theorem crash_iff_overclosed (limits : Limits) (language : Language) (script : String) :
    (∀ p, JavaScript.Cursor.start.IsOpen p → 1 ≤ (JavaScript.Cursor.start.after p).depth) ∧
    (∀ s, Python.fieldLengths 1 none 0 s = .error .crash ↔ ∃ n, Python.closingBrace 1 s = some (n, 0)) ∧
    (∀ s, (Python.fieldLengths 1 none 0 s).map Prod.snd = Python.fieldEnd (Python.closingBrace 1 s)) ∧
    (freeNames limits language.name script = .error .crash ↔
      language = .python ∧ Python.ComesToOverclosed limits.maxNesting (limits.maxNesting + 1) script.toList) ∧
    ((∃ names, freeNames limits language.name script = .ok names) ∨
      (∃ cause, freeNames limits language.name script = .error (.fault cause) ∧ cause.isInternal = false) ∨
      freeNames limits language.name script = .error .crash ∧ language = .python ∧
        Python.Overclosed script.toList) := by
  refine ⟨fun p hp => JavaScript.Cursor.depth_pos hp (Nat.le_refl 1), Python.fieldLengths_eq_crash_iff,
    Python.map_snd_fieldLengths, freeNames_crash_iff limits language script, ?_⟩
  cases hresult : freeNames limits language.name script with
  | ok names => exact Or.inl ⟨names, rfl⟩
  | error e =>
      cases e with
      | fault cause => exact Or.inr (Or.inl ⟨cause, rfl, freeNames_failsAs limits language script _ hresult⟩)
      | crash =>
          obtain ⟨hpython, hcomes⟩ := (freeNames_crash_iff limits language script).mp hresult
          exact Or.inr (Or.inr ⟨rfl, hpython, hcomes.overclosed⟩)

def overclosedScript : String := "f\"\x7ba)\x7d\""

theorem crash_iff_overclosed_overclosedScript :
    Python.ComesToOverclosed 32 33 overclosedScript.toList ∧
      freeNames {} "python" overclosedScript = .error .crash := by
  have hfield : Python.StringField (overclosedScript.toList.drop 1) ['a', ')', '\x7d', '"'] :=
    ⟨'"', ['\x7b', 'a', ')', '\x7d', '"'], by decide,
      .here (by simp [Python.EndsString, Python.delimiterOf]) (by decide)⟩
  have hbefore : Python.stringExpressions true (overclosedScript.toList.drop 1) = [] := by decide
  have hclose : Python.closingBrace 1 ['a', ')', '\x7d', '"'] = some (2, 0) := by decide
  have hcomes : Python.ComesToOverclosed 32 33 overclosedScript.toList :=
    .field .here (by decide) hfield (by rw [hbefore]; exact List.forall_mem_nil _) hclose
  obtain ⟨-, -, -, hcrash, -⟩ := crash_iff_overclosed {} .python overclosedScript
  exact ⟨hcomes, hcrash.mpr ⟨rfl, hcomes⟩⟩

/-- This field has its closing brace, and the counter is at zero there. -/
theorem overclosedScript_crashes :
    Python.closingBrace 1 ['a', ')', '\x7d', '"'] = some (2, 0) ∧
    ¬ ∀ (limits : Limits) (language : Language) (script : String),
      (∃ names, freeNames limits language.name script = .ok names) ∨
      ∃ cause, freeNames limits language.name script = .error (.fault cause) := by
  refine ⟨by decide, fun h => ?_⟩
  have hcrash : freeNames {} Language.python.name overclosedScript = .error .crash := by decide +kernel
  rcases h {} .python overclosedScript with ⟨names, hnames⟩ | ⟨cause, hcause⟩
  · cases hcrash.symm.trans hnames
  · cases hcrash.symm.trans hcause

end BookCompiler.Script
