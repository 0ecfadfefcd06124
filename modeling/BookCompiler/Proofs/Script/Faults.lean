import BookCompiler.Compile.Dependencies
import BookCompiler.Proofs.Script.Braces
import BookCompiler.Proofs.Script.Words

namespace BookCompiler

namespace Script

def Fault.isInternal : Fault → Bool
  | noLanguage _ | unsupportedLanguage _ => true
  | tooManyIdentifiers _ _ | nestedTooDeep _ | openReplacementField | openTemplate | openTemplateExpression => false

namespace Failure

def isInternal : Failure → Bool
  | fault cause => cause.isInternal
  | crash => false

/-- A script is refused for what stands in it. -/
def IsRefusal (e : Failure) : Prop := ∃ cause, e = fault cause ∧ cause.isInternal = false

theorem IsRefusal.isInternal_eq_false {e : Failure} (h : e.IsRefusal) : e.isInternal = false := by
  obtain ⟨cause, rfl, hcause⟩ := h
  exact hcause

end Failure

theorem Language.ofTag?_name (language : Language) : ofTag? language.name = some language := by
  cases language <;> decide

theorem scan_failsAs {σ : Type} {P : Failure → Prop} {lexeme : σ → Char → List Char → Except Failure (σ × Nat)}
    (step : ∀ state c rest, FailsAs (lexeme state c rest) P) (state : σ) (more : Nat) (s : List Char) :
    FailsAs (scan lexeme state more s) P := by
  intro e he
  obtain ⟨goal, c, rest, -, hfails⟩ := scan_eq_error_iff.mp he
  exact step goal c rest e hfails

theorem checkIdentifiers_failsAs (limits : Limits) (tokens : List Token) :
    FailsAs (checkIdentifiers limits tokens) Failure.IsRefusal :=
  .ite (.error ⟨_, rfl, rfl⟩) (.ok ())

namespace JavaScript

theorem expressionLength_failsAs (s : List Char) :
    FailsAs (expressionLength .code 1 false '\x7b' s) (· = .fault .openTemplateExpression) := by
  intro e he
  rcases Cursor.start.isOpen_or_ok (Nat.le_refl 1) s with hopen | ⟨n, hn⟩
  · exact Except.error.inj (he.symm.trans hopen)
  · cases he.symm.trans hn

theorem readTemplate_failsAs (more : Nat) (s : List Char) : FailsAs (readTemplate more s).length Failure.IsRefusal := by
  induction s generalizing more with
  | nil => exact .error ⟨_, rfl, rfl⟩
  | cons c rest ih =>
      rw [readTemplate]
      split
      · exact (ih _).map _
      · split
        · exact (ih _).map _
        · split
          · exact .ok 1
          · split
            · split
              · rename_i e he
                exact .error ⟨_, expressionLength_failsAs rest.tail e he, rfl⟩
              · exact (ih _).map _
            · exact (ih _).map _

theorem lexeme_failsAs {nested : List Char → Except Failure (List Token)}
    (hnested : ∀ s, FailsAs (nested s) Failure.IsRefusal) (before : List Token) (c : Char) (rest : List Char) :
    FailsAs (lexeme nested before c rest) Failure.IsRefusal := by
  have htemplate : FailsAs (templateTokens nested (readTemplate 0 rest)) Failure.IsRefusal :=
    (FailsAs.mapM fun s _ => hnested s).bind fun _ _ => (readTemplate_failsAs 0 rest).bind fun _ _ => .ok _
  refine .ite (.ok _) (.ite (.ok _) (.ite (.ok _) (.ite (.ok _) (.ite ?_ ?_))))
  · exact htemplate.bind fun _ _ => .ok _
  · exact .ite (.ok _) (.ite (.ok _) (.ite (.ok _) (.ok _)))

theorem tokensWithin_failsAs (limit levels : Nat) (s : List Char) :
    FailsAs (tokensWithin limit levels s) Failure.IsRefusal := by
  induction levels generalizing s with
  | zero => exact .error ⟨_, rfl, rfl⟩
  | succ levels ih =>
      exact (scan_failsAs (lexeme_failsAs fun expression => ih expression) [] 0 s).map _

theorem freeNames_failsAs (limits : Limits) (typed : Bool) (script : List Char) :
    FailsAs (freeNames limits typed script) Failure.IsRefusal :=
  (tokensWithin_failsAs _ _ script).bind fun tokens _ => (checkIdentifiers_failsAs limits tokens).bind fun _ _ => .ok _

end JavaScript

namespace Python

theorem fieldLengths_failsAs (s : List Char) : FailsAs (fieldLengths 1 none 0 s) fun e => e.isInternal = false := by
  intro e he
  rw [← map_eq_error_iff (f := Prod.snd), map_snd_fieldLengths] at he
  match closingBrace 1 s, he with
  | none, he => cases he; rfl
  | some (_, 0), he => cases he; rfl

theorem readString_failsAs (delimiter : List Char) (formatted : Bool) (more : Nat) (s : List Char) :
    FailsAs (readString delimiter formatted more s).length fun e => e.isInternal = false := by
  induction s generalizing more with
  | nil => exact .ok 0
  | cons c rest ih =>
      rw [readString]
      dsimp only
      split
      · exact (ih _).map _
      · split
        · exact .ok _
        · split
          · exact (ih _).map _
          · split
            · exact .ok 0
            · split
              · split
                · exact (ih _).map _
                · split
                  · rename_i e he
                    exact .error (fieldLengths_failsAs rest e he)
                  · exact (ih _).map _
              · exact (ih _).map _

theorem lexeme_failsAs {nested : List Char → Except Failure (List Token)}
    (hnested : ∀ s, FailsAs (nested s) fun e => e.isInternal = false) (state : State) (c : Char) (rest : List Char) :
    FailsAs (lexeme nested state c rest) fun e => e.isInternal = false := by
  refine .ite (.ok _) (.ite (.ok _) (.ite (.ok _) (.ite (.ok _) ?_)))
  cases stringMark? 2 (c :: rest) with
  | none => exact .ite (.ok _) (.ite (.ok _) (.ok _))
  | some mark =>
      refine FailsAs.bind ?_ fun _ _ => .ok _
      cases (c :: rest).drop mark.1 with
      | nil => exact .ok ([], 0)
      | cons quote s =>
          exact (FailsAs.mapM fun e _ => hnested e).bind fun _ _ => (readString_failsAs _ _ 0 _).bind fun _ _ => .ok _

theorem tokensWithin_failsAs (limit levels : Nat) (s : List Char) :
    FailsAs (tokensWithin limit levels s) fun e => e.isInternal = false := by
  induction levels generalizing s with
  | zero => exact .error rfl
  | succ levels ih => exact (scan_failsAs (lexeme_failsAs fun expression => ih expression) {} 0 s).map _

theorem freeNames_failsAs (limits : Limits) (script : List Char) :
    FailsAs (freeNames limits script) fun e => e.isInternal = false := by
  refine (tokensWithin_failsAs _ _ script).bind fun tokens _ => FailsAs.bind (fun e he => ?_) fun _ _ => .ok _
  exact (checkIdentifiers_failsAs limits tokens e he).isInternal_eq_false

end Python

theorem freeNames_failsAs (limits : Limits) (language : Language) (script : String) :
    FailsAs (freeNames limits language.name script) fun e => e.isInternal = false := by
  rw [freeNames, language.ofTag?_name]
  refine FailsAs.map (fun e he => ?_) _
  cases language with
  | javascript => exact (JavaScript.freeNames_failsAs limits false _ e he).isInternal_eq_false
  | typescript => exact (JavaScript.freeNames_failsAs limits true _ e he).isInternal_eq_false
  | python => exact Python.freeNames_failsAs limits _ e he

end Script

theorem Task.neededNames_failsAs {t : Task} (h : t.type = .script → ∃ l : Script.Language, t.language = some l.name)
    (limits : Script.Limits) : FailsAs (t.neededNames limits) fun e => e.isInternal = false := by
  have hcontent : FailsAs (t.contentNames limits) fun e => e.isInternal = false := by
    unfold contentNames
    split
    · rename_i htype hlanguage
      obtain ⟨l, hl⟩ := h htype
      rw [hlanguage] at hl
      cases hl
    · rename_i language htype hlanguage
      obtain ⟨l, hl⟩ := h htype
      rw [hlanguage] at hl
      cases hl
      exact Script.freeNames_failsAs limits l t.content
    · exact .ok _
  exact hcontent.bind fun _ _ => .ok _

end BookCompiler
