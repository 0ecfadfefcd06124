import BookCompiler.Compile.Dependencies
import BookCompiler.Proofs.Outcome

namespace BookCompiler

namespace Script

/-- No limit of the first is above that of the second. -/
structure Limits.Within (small large : Limits) : Prop where
  identifiers : small.maxIdentifiers ≤ large.maxIdentifiers
  nesting : small.maxNesting ≤ large.maxNesting

def Fault.isLimit : Fault → Bool
  | tooManyIdentifiers _ _ => true
  | nestedTooDeep _ => true
  | _ => false

def Failure.isLimit : Failure → Bool
  | fault cause => cause.isLimit
  | crash => false

/-- What an analysis answers within higher limits is what it answered, unless it gave up at a limit. -/
abbrev Raised {α : Type} (x y : Except Failure α) : Prop := SameUnless (·.isLimit = true) x y

theorem scan_raised {σ : Type} {f g : σ → Char → List Char → Except Failure (σ × Nat)}
    (h : ∀ state c rest, Raised (f state c rest) (g state c rest)) (state : σ) (more : Nat) (s : List Char) :
    Raised (scan f state more s) (scan g state more s) := by
  induction s generalizing state more with
  | nil => exact .refl _
  | cons c rest ih =>
      cases more with
      | zero => exact (h state c rest).bind fun _ => ih _ _
      | succ more => exact ih state more

theorem checkIdentifiers_raised {small large : Limits} (h : small.Within large) (tokens : List Token) :
    Raised (checkIdentifiers small tokens) (checkIdentifiers large tokens) := by
  unfold checkIdentifiers
  by_cases hsmall : small.maxIdentifiers < (distinctNames tokens).length
  · rw [if_pos hsmall]
    exact Or.inr ⟨_, rfl, rfl⟩
  · have hlarge : ¬ large.maxIdentifiers < (distinctNames tokens).length :=
      fun hlt => hsmall (Nat.lt_of_le_of_lt h.identifiers hlt)
    rw [if_neg hsmall, if_neg hlarge]
    exact .refl _

/-- A reader that looks one level deeper in each step reads within more levels what it read within fewer. -/
theorem levels_raised {α : Type} {f g : Nat → List Char → Except Failure α}
    (zero : ∀ levels s, Raised (f 0 s) (g levels s))
    (step : ∀ levels levels', (∀ s, Raised (f levels s) (g levels' s)) →
      ∀ s, Raised (f (levels + 1) s) (g (levels' + 1) s))
    {levels levels' : Nat} (h : levels ≤ levels') (s : List Char) : Raised (f levels s) (g levels' s) := by
  induction levels generalizing levels' s with
  | zero => exact zero levels' s
  | succ levels ih =>
      obtain ⟨deeper, rfl⟩ := Nat.exists_eq_add_of_lt h
      exact step levels (levels + deeper) (ih (Nat.le_add_right levels deeper)) s

namespace JavaScript

theorem lexeme_raised {f g : List Char → Except Failure (List Token)} (h : ∀ s, Raised (f s) (g s))
    (before : List Token) (c : Char) (rest : List Char) :
    Raised (lexeme f before c rest) (lexeme g before c rest) := by
  have htemplate (t : Template) : Raised (templateTokens f t) (templateTokens g t) :=
    (SameUnless.mapM h _).bind fun _ => .refl _
  exact .ite (.refl _) <| .ite (.refl _) <| .ite (.refl _) <| .ite (.refl _) <|
    .ite ((htemplate _).bind fun _ => .refl _) (.refl _)

theorem tokensWithin_raised {limit limit' levels levels' : Nat} (h : levels ≤ levels') (s : List Char) :
    Raised (tokensWithin limit levels s) (tokensWithin limit' levels' s) := by
  refine levels_raised (fun _ _ => Or.inr ⟨_, rfl, rfl⟩) (fun levels levels' ih s => ?_) h s
  apply SameUnless.map
  apply scan_raised
  exact lexeme_raised ih

theorem freeNames_raised {small large : Limits} (h : small.Within large) (typed : Bool) (script : List Char) :
    Raised (freeNames small typed script) (freeNames large typed script) := by
  have htokens : Raised (tokens small script) (tokens large script) :=
    tokensWithin_raised (Nat.succ_le_succ h.nesting) script
  exact htokens.bind fun tokens => (checkIdentifiers_raised h tokens).bind fun _ => .refl _

end JavaScript

namespace Python

theorem lexeme_raised {f g : List Char → Except Failure (List Token)} (h : ∀ s, Raised (f s) (g s))
    (state : State) (c : Char) (rest : List Char) :
    Raised (lexeme f state c rest) (lexeme g state c rest) := by
  have hstring (formatted : Bool) (s : List Char) :
      Raised (stringTokens f formatted s) (stringTokens g formatted s) := by
    cases s with
    | nil => exact .refl _
    | cons quote s => exact (SameUnless.mapM h _).bind fun _ => .refl _
  refine .ite (.refl _) <| .ite (.refl _) <| .ite (.refl _) <| .ite (.refl _) ?_
  cases stringMark? 2 (c :: rest) with
  | none => exact .refl _
  | some mark => exact (hstring _ _).bind fun _ => .refl _

theorem tokensWithin_raised {limit limit' levels levels' : Nat} (h : levels ≤ levels') (s : List Char) :
    Raised (tokensWithin limit levels s) (tokensWithin limit' levels' s) := by
  refine levels_raised (fun _ _ => Or.inr ⟨_, rfl, rfl⟩) (fun levels levels' ih s => ?_) h s
  apply SameUnless.map
  apply scan_raised
  exact lexeme_raised ih

theorem freeNames_raised {small large : Limits} (h : small.Within large) (script : List Char) :
    Raised (freeNames small script) (freeNames large script) := by
  have htokens : Raised (tokens small script) (tokens large script) :=
    tokensWithin_raised (Nat.succ_le_succ h.nesting) script
  exact htokens.bind fun tokens => (checkIdentifiers_raised h tokens).bind fun _ => .refl _

end Python

theorem freeNames_raised {small large : Limits} (h : small.Within large) (tag script : String) :
    Raised (freeNames small tag script) (freeNames large tag script) := by
  unfold freeNames
  cases Language.ofTag? tag with
  | none => exact .refl _
  | some language =>
      apply SameUnless.map
      cases language with
      | javascript => exact JavaScript.freeNames_raised h false _
      | typescript => exact JavaScript.freeNames_raised h true _
      | python => exact Python.freeNames_raised h _

end Script

namespace Task

theorem neededNames_raised {small large : Script.Limits} (h : small.Within large) (t : Task) :
    Script.Raised (t.neededNames small) (t.neededNames large) := by
  have hcontent : Script.Raised (t.contentNames small) (t.contentNames large) := by
    unfold contentNames
    split
    · exact .refl _
    · exact Script.freeNames_raised h _ _
    · exact .refl _
  exact hcontent.bind fun _ => .refl _

end Task

end BookCompiler
