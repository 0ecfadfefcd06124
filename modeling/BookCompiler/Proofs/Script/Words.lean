import BookCompiler.Compile.Dependencies
import BookCompiler.Proofs.Name.Order
import BookCompiler.Proofs.Name.Reference
import BookCompiler.Proofs.Script.Reaches
import Mathlib.Data.List.Perm.Subperm
import Mathlib.Data.List.TakeWhile

namespace BookCompiler.Script

open Text

def NamesAre (P : String → Prop) (tokens : List Token) : Prop := ∀ text, Token.name text ∈ tokens → P text

namespace NamesAre

variable {P : String → Prop} {tokens more : List Token}

theorem nil : NamesAre P [] := nofun

theorem cons {t : Token} (ht : t.name? = none) (h : NamesAre P tokens) : NamesAre P (t :: tokens) := by
  intro text hmem
  rcases List.mem_cons.mp hmem with rfl | hmem
  · cases ht
  · exact h text hmem

theorem cons_name {text : String} (htext : P text) (h : NamesAre P tokens) : NamesAre P (.name text :: tokens) := by
  intro other hmem
  rcases List.mem_cons.mp hmem with heq | hmem
  · cases heq
    exact htext
  · exact h other hmem

theorem append (h : NamesAre P tokens) (hmore : NamesAre P more) : NamesAre P (tokens ++ more) := by
  intro text hmem
  rcases List.mem_append.mp hmem with hmem | hmem
  · exact h text hmem
  · exact hmore text hmem

theorem of_subset (h : NamesAre P tokens) (hsubset : more ⊆ tokens) : NamesAre P more :=
  fun text hmem => h text (hsubset hmem)

theorem reverse (h : NamesAre P tokens) : NamesAre P tokens.reverse := h.of_subset fun _ => List.mem_reverse.mp

theorem flatMap {f : List Token → List Token} {parts : List (List Token)}
    (h : ∀ part ∈ parts, NamesAre P (f part)) : NamesAre P (parts.flatMap f) := by
  intro text hmem
  obtain ⟨part, hpart, hmem⟩ := List.mem_flatMap.mp hmem
  exact h part hpart text hmem

end NamesAre

theorem name?_bracketToken? {c : Char} {t : Token} (h : bracketToken? c = some t) : t.name? = none := by
  rw [bracketToken?] at h
  split_ifs at h <;> cases h <;> rfl

namespace JavaScript

variable {P : String → Prop}

theorem signToken_name? (c : Char) (rest : List Char) : (signToken c rest).1.name? = none := by
  unfold signToken
  split
  · rename_i t ht
    exact name?_bracketToken? ht
  · split <;> rfl

theorem expressionTokens_names {nested : List Token} (h : NamesAre P nested) : NamesAre P (expressionTokens nested) :=
  ((NamesAre.nil.cons rfl).cons rfl |>.cons rfl |>.append h).append ((NamesAre.nil.cons rfl).cons rfl)

theorem lexeme_names {nested : List Char → Except Failure (List Token)} {before : List Token} {c : Char} {rest : List Char}
    (h : NamesAre P before) (hword : isNameStart c = true → P (String.ofList (c :: rest.takeWhile isNamePart)))
    (hnested : c = '\x60' → ∀ e ∈ (readTemplate 0 rest).expressions, Ensures (nested e) (NamesAre P)) :
    Ensures (lexeme nested before c rest) fun r => NamesAre P r.1 := by
  refine .ite (fun _ => .ok h) fun _ => .ite (fun _ => .ok h) fun _ => .ite (fun _ => .ok h) fun _ => ?_
  refine .ite (fun _ => .ok (h.cons rfl)) fun _ => .ite (fun hc => ?_) fun _ => ?_
  · have htemplate : Ensures (templateTokens nested (readTemplate 0 rest)) fun r => NamesAre P r.1 := by
      refine (Ensures.mapM (hnested hc)).bind fun parts hparts => .andThen fun length => .ok ?_
      exact (NamesAre.flatMap fun part hpart => expressionTokens_names (hparts part hpart)).append (.cons rfl .nil)
    exact htemplate.bind fun r hr => .ok (hr.reverse.append h)
  · refine .ite (fun _ => .ok (h.cons rfl)) fun _ => .ite (fun _ => .ok (h.cons rfl)) fun _ => ?_
    refine .ite (fun hstart => .ok ?_) fun _ => .ok ?_
    · exact h.cons_name (hword hstart)
    · exact h.cons (signToken_name? c rest)

/-- The lexer of a script stands before a text. The expressions in the script may nest so many levels deep. -/
def Stands (limit levels : Nat) (s : List Char) (before : List Token) (t : List Char) : Prop :=
  Reaches (lexeme fun expression => tokensWithin limit levels expression) before t [] 0 s

/-- A name stands as a word in a script, or in an expression of a template in it. -/
inductive Word (limit : Nat) : (levels : Nat) → List Char → String → Prop
  | plain {levels : Nat} {s rest : List Char} {before : List Token} {c : Char}
      (h : Stands limit levels s before (c :: rest)) (hstart : isNameStart c = true) :
      Word limit (levels + 1) s (String.ofList (c :: rest.takeWhile isNamePart))
  | inside {levels : Nat} {s rest e : List Char} {before : List Token} {name : String}
      (h : Stands limit levels s before ('\x60' :: rest)) (he : e ∈ (readTemplate 0 rest).expressions)
      (hname : Word limit levels e name) : Word limit (levels + 1) s name

theorem tokensWithin_words (limit levels : Nat) (s : List Char) :
    Ensures (tokensWithin limit levels s) (NamesAre (Word limit levels s)) := by
  induction levels generalizing s with
  | zero => exact .error _
  | succ levels ih =>
      refine Ensures.map (scan_ensures_reached (I := NamesAre _) ?_ .nil) fun _ h => h.reverse
      intro before c rest hreach hbefore
      refine lexeme_names hbefore (fun hstart => .plain hreach hstart) fun hc e he tokens htokens name hname => ?_
      subst hc
      exact .inside hreach he (ih e tokens htokens name hname)

theorem isInfix_of_mem_readTemplate {more : Nat} {s e : List Char} (h : e ∈ (readTemplate more s).expressions) : e <:+: s := by
  induction s generalizing more with
  | nil => cases h
  | cons c rest ih =>
      have htail {m : Nat} (hm : e ∈ (readTemplate m rest).expressions) : e <:+: c :: rest :=
        (ih hm).trans (List.suffix_cons c rest).isInfix
      rw [readTemplate] at h
      split_ifs at h
      · exact htail h
      · exact htail h
      · cases h
      · split at h
        · cases h
        · rename_i n _
          rcases List.mem_cons.mp h with rfl | h
          · have hprefix : rest.tail.take n <:+: rest :=
              (List.take_prefix n _).isInfix.trans (List.tail_suffix rest).isInfix
            exact hprefix.trans (List.suffix_cons c rest).isInfix
          · exact htail h
      · exact htail h

theorem Word.isInfix {limit levels : Nat} {s : List Char} {name : String} (h : Word limit levels s name) :
    name.toList <:+: s := by
  induction h with
  | @plain levels s rest before c h _ =>
      have hword : c :: rest.takeWhile isNamePart <+: c :: rest := List.prefix_cons_inj c |>.mpr (List.takeWhile_prefix _)
      rw [String.toList_ofList]
      exact hword.isInfix.trans h.suffix.isInfix
  | inside h he _ ih =>
      have hexpression := (isInfix_of_mem_readTemplate he).trans (List.suffix_cons '\x60' _).isInfix
      exact (ih.trans hexpression).trans h.suffix.isInfix

theorem mem_of_mem_readFrom {known : String → Bool} {before tokens : List Token} {text : String}
    (h : text ∈ readFrom known before tokens) : Token.name text ∈ tokens ∧ known text = false := by
  induction tokens generalizing before with
  | nil => cases h
  | cons t after ih =>
      unfold readFrom at h
      rw [List.mem_append] at h
      rcases h with h | h
      · split at h
        · split at h
          · rename_i hread
            rw [List.mem_singleton.mp h]
            simp only [Bool.and_eq_true, Bool.not_eq_true'] at hread
            exact ⟨List.mem_cons_self, hread.1⟩
          · cases h
        · cases h
      · exact (ih h).imp_left (List.mem_cons_of_mem t)

end JavaScript

namespace Python

variable {P : String → Prop}

theorem endLine_names {state : State} (h : NamesAre P state.before) : NamesAre P state.endLine.before := by
  rw [State.endLine]
  split
  · exact h
  · exact h
  · split
    · exact h.cons rfl
    · exact h

theorem sign_names {state : State} (h : NamesAre P state.before) (c : Char) (rest : List Char) :
    NamesAre P (state.sign c rest).1.before := by
  rw [State.sign]
  split
  · exact h.cons rfl
  · split
    · rename_i t ht
      exact h.cons (name?_bracketToken? ht)
    · exact h.cons rfl

theorem expressionTokens_names {nested : List Token} (h : NamesAre P nested) : NamesAre P (expressionTokens nested) :=
  ((NamesAre.nil.cons rfl).append (h.of_subset (List.filter_subset_self nested))).append (NamesAre.nil.cons rfl)

def stringExpressions (formatted : Bool) : List Char → List (List Char)
  | [] => []
  | quote :: rest =>
    let delimiter := delimiterOf quote rest
    (readString delimiter formatted 0 (rest.drop (delimiter.length - 1))).expressions

theorem mem_of_stringMark? {n : Nat} {c : Char} {s : List Char} {mark : Nat × Bool} (h : stringMark? n (c :: s) = some mark) :
    c ∈ ['"', '\'', 'f', 'F', 'r', 'R', 'b', 'B', 'u', 'U'] := by
  rw [stringMark?.eq_def] at h
  simp only [isQuote] at h
  grind

theorem drop_stringMark? {n letters : Nat} {s : List Char} {formatted : Bool}
    (h : stringMark? n s = some (letters, formatted)) :
    ∃ quote rest, isQuote quote = true ∧ s.drop letters = quote :: rest := by
  induction s generalizing n letters formatted with
  | nil => cases n <;> cases h
  | cons c s ih =>
      cases n with
      | zero =>
          simp only [stringMark?] at h
          split_ifs at h with hquote
          cases h
          exact ⟨c, s, hquote, rfl⟩
      | succ n =>
          simp only [stringMark?] at h
          split_ifs at h with hquote
          · cases h
            exact ⟨c, s, hquote, rfl⟩
          · obtain ⟨⟨k, g⟩, hk, heq⟩ := Option.map_eq_some_iff.mp h
            cases heq
            exact ih hk

theorem lexeme_of_stringMark? {nested : List Char → Except Failure (List Token)} {state : State} {c : Char} {s : List Char}
    {letters : Nat} {formatted : Bool} (h : stringMark? 2 (c :: s) = some (letters, formatted)) :
    lexeme nested state c s = (stringTokens nested formatted ((c :: s).drop letters)).map fun (tokens, length) =>
      ({ state with before := tokens.reverse ++ state.before }, letters + length - 1) := by
  have hall : ['"', '\'', 'f', 'F', 'r', 'R', 'b', 'B', 'u', 'U'].all
      (fun c => c ≠ '\n' ∧ c ≠ '\\' ∧ isBlank c = false ∧ c ≠ '#') = true := by decide
  obtain ⟨hline, hescape, hblank, hcomment⟩ := of_decide_eq_true (List.all_eq_true.mp hall c (mem_of_stringMark? h))
  simp only [lexeme, hline, hescape, hblank, hcomment, h]
  cases stringTokens nested formatted ((c :: s).drop letters) <;> rfl

theorem lexeme_names {nested : List Char → Except Failure (List Token)} {state : State} {c : Char} {rest : List Char}
    (h : NamesAre P state.before)
    (hword : stringMark? 2 (c :: rest) = none → isNameStart c = true →
      P (String.ofList (c :: rest.takeWhile isNamePart)))
    (hnested : ∀ letters formatted, stringMark? 2 (c :: rest) = some (letters, formatted) →
      ∀ e ∈ stringExpressions formatted ((c :: rest).drop letters), Ensures (nested e) (NamesAre P)) :
    Ensures (lexeme nested state c rest) fun r => NamesAre P r.1.before := by
  refine .ite (fun _ => .ok (endLine_names h)) fun _ => .ite (fun _ => .ok h) fun _ => ?_
  refine .ite (fun _ => .ok h) fun _ => .ite (fun _ => .ok h) fun _ => ?_
  cases hmark : stringMark? 2 (c :: rest) with
  | some mark =>
      obtain ⟨letters, formatted⟩ := mark
      have hstring : Ensures (stringTokens nested formatted ((c :: rest).drop letters)) fun r => NamesAre P r.1 := by
        have hall := hnested letters formatted hmark
        cases hs : (c :: rest).drop letters with
        | nil => exact .ok .nil
        | cons quote s =>
            rw [hs] at hall
            refine (Ensures.mapM hall).bind fun parts hparts => .andThen fun length => .ok ?_
            exact (NamesAre.flatMap fun part hpart => expressionTokens_names (hparts part hpart)).append (.cons rfl .nil)
      exact hstring.bind fun r hr => .ok (hr.reverse.append h)
  | none =>
      refine .ite (fun _ => .ok (h.cons rfl)) fun _ => .ite (fun hstart => .ok ?_) fun _ => .ok ?_
      · exact h.cons_name (hword hmark hstart)
      · exact sign_names h c rest

/-- The lexer of a script stands before a text. The expressions in the script may nest so many levels deep. -/
def Stands (limit levels : Nat) (s : List Char) (state : State) (t : List Char) : Prop :=
  Reaches (lexeme fun expression => tokensWithin limit levels expression) state t {} 0 s

/-- A name stands as a word in a script, or in an expression of a format string in it. -/
inductive Word (limit : Nat) : (levels : Nat) → List Char → String → Prop
  | plain {levels : Nat} {s rest : List Char} {state : State} {c : Char}
      (h : Stands limit levels s state (c :: rest)) (hmark : stringMark? 2 (c :: rest) = none)
      (hstart : isNameStart c = true) : Word limit (levels + 1) s (String.ofList (c :: rest.takeWhile isNamePart))
  | inside {levels letters : Nat} {s t e : List Char} {state : State} {formatted : Bool} {name : String}
      (h : Stands limit levels s state t) (hmark : stringMark? 2 t = some (letters, formatted))
      (he : e ∈ stringExpressions formatted (t.drop letters)) (hname : Word limit levels e name) :
      Word limit (levels + 1) s name

theorem tokensWithin_words (limit levels : Nat) (s : List Char) :
    Ensures (tokensWithin limit levels s) (NamesAre (Word limit levels s)) := by
  induction levels generalizing s with
  | zero => exact .error _
  | succ levels ih =>
      refine Ensures.map (scan_ensures_reached (I := fun state => NamesAre _ state.before) ?_ .nil) fun _ h => h.reverse
      intro state c rest hreach hbefore
      refine lexeme_names hbefore (fun hmark hstart => .plain hreach hmark hstart) ?_
      intro letters formatted hmark e he tokens htokens name hname
      exact .inside hreach hmark he (ih e tokens htokens name hname)

theorem isInfix_of_mem_readString {delimiter : List Char} {formatted : Bool} {more : Nat} {s e : List Char}
    (h : e ∈ (readString delimiter formatted more s).expressions) : e <:+: s := by
  induction s generalizing more with
  | nil => cases h
  | cons c rest ih =>
      have htail {m : Nat} (hm : e ∈ (readString delimiter formatted m rest).expressions) : e <:+: c :: rest :=
        (ih hm).trans (List.suffix_cons c rest).isInfix
      rw [readString] at h
      dsimp only at h
      split_ifs at h
      · exact htail h
      · cases h
      · exact htail h
      · cases h
      · exact htail h
      · split at h
        · cases h
        · rename_i n _ _
          rcases List.mem_cons.mp h with rfl | h
          · exact (List.take_prefix n rest).isInfix.trans (List.suffix_cons c rest).isInfix
          · exact htail h
      · exact htail h

theorem isInfix_of_mem_stringExpressions {formatted : Bool} {s e : List Char} (h : e ∈ stringExpressions formatted s) : e <:+: s := by
  cases s with
  | nil => cases h
  | cons quote rest =>
      have hbody := (isInfix_of_mem_readString h).trans (List.drop_suffix _ rest).isInfix
      exact hbody.trans (List.suffix_cons quote rest).isInfix

theorem Word.isInfix {limit levels : Nat} {s : List Char} {name : String} (h : Word limit levels s name) :
    name.toList <:+: s := by
  induction h with
  | @plain levels s rest state c h _ _ =>
      have hword : c :: rest.takeWhile isNamePart <+: c :: rest := List.prefix_cons_inj c |>.mpr (List.takeWhile_prefix _)
      rw [String.toList_ofList]
      exact hword.isInfix.trans h.suffix.isInfix
  | inside h _ he _ ih =>
      have hexpression := (isInfix_of_mem_stringExpressions he).trans (List.drop_suffix _ _).isInfix
      exact (ih.trans hexpression).trans h.suffix.isInfix

theorem mem_of_mem_readFrom {known : String → Bool} {depth : Nat} {before tokens : List Token} {text : String}
    (h : text ∈ readFrom known depth before tokens) : Token.name text ∈ tokens ∧ known text = false := by
  induction tokens generalizing depth before with
  | nil => cases h
  | cons t after ih =>
      unfold readFrom at h
      rw [List.mem_append] at h
      rcases h with h | h
      · split at h
        · split at h
          · rename_i hread
            rw [List.mem_singleton.mp h]
            simp only [Bool.and_eq_true, Bool.not_eq_true'] at hread
            exact ⟨List.mem_cons_self, hread.1⟩
          · cases h
        · cases h
      · exact (ih h).imp_left (List.mem_cons_of_mem t)

end Python

namespace Language

def tokens (language : Language) (limits : Limits) (s : List Char) : Except Failure (List Token) :=
  match language with
  | javascript | typescript => JavaScript.tokens limits s
  | python => Python.tokens limits s

def declared (language : Language) (tokens : List Token) : List String :=
  match language with
  | javascript | typescript => JavaScript.declared tokens
  | python => Python.declared tokens

def isBuiltIn : Language → String → Bool
  | javascript => JavaScript.isBuiltIn false
  | typescript => JavaScript.isBuiltIn true
  | python => Python.isBuiltIn

/-- A name stands as a word in a script, or in an expression inside a text in it. -/
def Word (language : Language) (limits : Limits) (s : List Char) (name : String) : Prop :=
  match language with
  | javascript | typescript => JavaScript.Word limits.maxNesting (limits.maxNesting + 1) s name
  | python => Python.Word limits.maxNesting (limits.maxNesting + 1) s name

def IsNameSign (language : Language) (c : Char) : Prop := c = '_' ∨ language ≠ python ∧ c = '$'

/-- How a name is spelled: a letter or sign, and then letters, numerals and signs. -/
def Spells (language : Language) (name : String) : Prop :=
  ∃ c rest, name.toList = c :: rest ∧ (isLetter c = true ∨ language.IsNameSign c) ∧
    ∀ d ∈ rest, isLetterOrNumeral d = true ∨ language.IsNameSign d

variable {language : Language} {limits : Limits} {s : List Char} {names : List String} {name : String}

theorem spells_takeWhile {c : Char} {rest : List Char} {p : Char → Bool} (hc : isLetter c = true ∨ language.IsNameSign c)
    (hp : ∀ d, p d = true → isLetterOrNumeral d = true ∨ language.IsNameSign d) :
    language.Spells (String.ofList (c :: rest.takeWhile p)) :=
  ⟨c, rest.takeWhile p, String.toList_ofList, hc, fun d hd => hp d (List.mem_takeWhile_imp hd)⟩

theorem spells_of_javaScript {limit levels : Nat} (hlanguage : language ≠ python)
    (h : JavaScript.Word limit levels s name) : language.Spells name := by
  induction h with
  | plain _ hstart =>
      apply spells_takeWhile
      · simpa [JavaScript.isNameStart, IsNameSign, hlanguage, or_assoc] using hstart
      · intro d hd
        simpa [JavaScript.isNamePart, IsNameSign, hlanguage, or_assoc] using hd
  | inside _ _ _ ih => exact ih

theorem spells_of_python {limit levels : Nat} (h : Python.Word limit levels s name) : python.Spells name := by
  induction h with
  | plain _ _ hstart =>
      apply spells_takeWhile
      · simpa [Python.isNameStart, IsNameSign] using hstart
      · intro d hd
        simpa [Python.isNamePart, IsNameSign] using hd
  | inside _ _ _ _ ih => exact ih

theorem Word.spells (h : language.Word limits s name) : language.Spells name := by
  cases language with
  | javascript | typescript => exact spells_of_javaScript nofun h
  | python => exact spells_of_python h

theorem Word.isInfix (h : language.Word limits s name) : name.toList <:+: s := by
  cases language with
  | javascript | typescript => exact JavaScript.Word.isInfix h
  | python => exact Python.Word.isInfix h

theorem tokens_words (language : Language) (limits : Limits) (s : List Char) :
    Ensures (language.tokens limits s) (NamesAre (language.Word limits s)) := by
  cases language with
  | javascript | typescript => exact JavaScript.tokensWithin_words _ _ s
  | python => exact Python.tokensWithin_words _ _ s

def freeNamesOf (language : Language) (tokens : List Token) : List String :=
  match language with
  | javascript => JavaScript.freeNamesOf false tokens
  | typescript => JavaScript.freeNamesOf true tokens
  | python => Python.freeNamesOf tokens

theorem freeNames_eq (language : Language) (limits : Limits) (s : List Char) :
    language.freeNames limits s = language.tokens limits s >>= fun tokens =>
      checkIdentifiers limits tokens >>= fun _ => .ok (language.freeNamesOf tokens) := by
  cases language <;> rfl

theorem tokens_of_freeNames (h : language.freeNames limits s = .ok names) :
    ∃ tokens, language.tokens limits s = .ok tokens ∧ checkIdentifiers limits tokens = .ok () ∧
      language.freeNamesOf tokens = names := by
  rw [freeNames_eq] at h
  obtain ⟨tokens, htokens, h⟩ := bind_ok h
  obtain ⟨_, hcheck, h⟩ := bind_ok h
  exact ⟨tokens, htokens, hcheck, Except.ok.inj h⟩

theorem mem_freeNamesOf {tokens : List Token} (h : name ∈ language.freeNamesOf tokens) :
    .name name ∈ tokens ∧ language.isBuiltIn name = false ∧ name ∉ language.declared tokens := by
  cases language with
  | javascript | typescript =>
      obtain ⟨hmem, hknown⟩ := JavaScript.mem_of_mem_readFrom h
      simp only [Bool.or_eq_false_iff, List.contains_eq_mem, decide_eq_false_iff_not] at hknown
      exact ⟨hmem, hknown⟩
  | python =>
      obtain ⟨hmem, hknown⟩ := Python.mem_of_mem_readFrom h
      simp only [Bool.or_eq_false_iff, List.contains_eq_mem, decide_eq_false_iff_not] at hknown
      exact ⟨hmem, hknown⟩

end Language

theorem checkIdentifiers_ensures (limits : Limits) (tokens : List Token) :
    Ensures (checkIdentifiers limits tokens) fun _ => (distinctNames tokens).length ≤ limits.maxIdentifiers :=
  .ite (fun _ => .error _) fun h => .ok (Nat.le_of_not_lt h)

theorem mem_distinctNames {tokens : List Token} {name : String} (h : .name name ∈ tokens) : name ∈ distinctNames tokens := by
  rw [distinctNames, List.mem_eraseDups]
  exact List.mem_filterMap.mpr ⟨.name name, h, rfl⟩

theorem length_sorted_le {tokens : List Token} {names : List String} (h : ∀ name ∈ names, .name name ∈ tokens) :
    (Name.sorted names).length ≤ (distinctNames tokens).length := by
  have hnodup : (Name.sorted names).Nodup := (Name.sorted_increasing names).imp ne_of_lt
  have hsubset : Name.sorted names ⊆ distinctNames tokens :=
    fun name hname => mem_distinctNames (h name ((Name.mem_sorted name names).mp hname))
  exact (List.subperm_of_subset hnodup hsubset).length_le

theorem exists_of_freeNames {limits : Limits} {tag script : String} {names : List String}
    (h : freeNames limits tag script = .ok names) :
    ∃ language, Language.ofTag? tag = some language ∧
      ∃ found, language.freeNames limits script.toList = .ok found ∧ Name.sorted found = names := by
  unfold freeNames at h
  cases htag : Language.ofTag? tag with
  | none =>
      rw [htag] at h
      cases h
  | some language =>
      rw [htag] at h
      exact ⟨language, rfl, map_ok h⟩

/-- What the analysis of a script in any language answers: no more names than the limit allows, each one a stretch of
the script that is spelled as a name, that stands in it as a word, also inside an expression in a text, and that is
neither built in nor declared anywhere in the script. -/
theorem freeNames_words {limits : Limits} {tag script : String} {names : List String}
    (h : freeNames limits tag script = .ok names) :
    ∃ language tokens, Language.ofTag? tag = some language ∧ language.tokens limits script.toList = .ok tokens ∧
      names.length ≤ limits.maxIdentifiers ∧ ∀ name ∈ names,
        name.toList <:+: script.toList ∧ language.Spells name ∧
        .name name ∈ tokens ∧ language.Word limits script.toList name ∧
        language.isBuiltIn name = false ∧ name ∉ language.declared tokens := by
  obtain ⟨language, htag, found, hfound, rfl⟩ := exists_of_freeNames h
  obtain ⟨tokens, htokens, hcheck, rfl⟩ := Language.tokens_of_freeNames hfound
  have hfree (name : String) (hname : name ∈ language.freeNamesOf tokens) := Language.mem_freeNamesOf hname
  refine ⟨language, tokens, htag, htokens, ?_, fun name hname => ?_⟩
  · exact (length_sorted_le fun name hname => (hfree name hname).1).trans
      (checkIdentifiers_ensures limits tokens () hcheck)
  · obtain ⟨hmem, hknown⟩ := hfree name ((Name.mem_sorted name _).mp hname)
    have hword := language.tokens_words limits script.toList tokens htokens name hmem
    exact ⟨hword.isInfix, hword.spells, hmem, hword, hknown⟩

def greetingScript : String := "const a = `Hi $\x7ba + `$\x7bb.name + $c\x7d`\x7d`; return a"

theorem freeNames_words_greetingScript :
    freeNames {} "js" greetingScript = .ok ["$c", "b"] ∧
    ∃ tokens, Language.javascript.tokens {} greetingScript.toList = .ok tokens ∧
      Language.javascript.Word {} greetingScript.toList "$c" ∧ "$c" ∉ Language.javascript.declared tokens := by
  have hnames : freeNames {} "js" greetingScript = .ok ["$c", "b"] := by decide +kernel
  obtain ⟨language, tokens, htag, htokens, -, hall⟩ := freeNames_words hnames
  obtain rfl : .javascript = language := Option.some.inj (htag ▸ by decide)
  obtain ⟨-, -, -, hword, -, hdeclared⟩ := hall "$c" (by decide)
  exact ⟨hnames, tokens, htokens, hword, hdeclared⟩

theorem isLetter_of_isDigit {c : Char} (h : c.isDigit = true) : isLetter c = false := by
  have hbounds : 48 ≤ c.toNat ∧ c.toNat ≤ 57 := by
    simpa [Char.isDigit, UInt32.le_iff_toNat_le] using h
  rw [isLetter, if_pos (by omega), Bool.eq_false_iff, Ne, Name.isAlpha_iff]
  omega

theorem Language.Spells.leads {language : Language} {name : String} (h : language.Spells name) : Name.Leads name := by
  obtain ⟨c, rest, hname, hc, -⟩ := h
  refine ⟨c, rest, hname, ?_⟩
  rcases hc with hletter | rfl | ⟨-, rfl⟩
  · by_contra hdigit
    rw [isLetter_of_isDigit (Bool.eq_true_of_not_eq_false hdigit)] at hletter
    cases hletter
  · rfl
  · rfl

theorem freeNames_lead (limits : Limits) (tag script : String) :
    Ensures (freeNames limits tag script) fun names => ∀ name ∈ names, Name.Leads name := by
  intro names hnames name hname
  obtain ⟨language, -, found, hfound, rfl⟩ := exists_of_freeNames hnames
  obtain ⟨tokens, htokens, -, rfl⟩ := Language.tokens_of_freeNames hfound
  obtain ⟨hmem, -⟩ := Language.mem_freeNamesOf ((Name.mem_sorted name _).mp hname)
  exact (language.tokens_words limits script.toList tokens htokens name hmem).spells.leads

end BookCompiler.Script
