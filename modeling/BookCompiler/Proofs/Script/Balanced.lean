import BookCompiler.Script.JavaScript
import Mathlib.Data.List.Infix
import Mathlib.Tactic.SplitIfs

namespace BookCompiler.Script

/-- Every bracket that closes has one open before it, and in the end all are closed. The shapes may differ. -/
structure Balanced (tokens : List Token) : Prop where
  closed : ∀ p, p <+: tokens → p.countP Token.isCloser ≤ p.countP Token.isOpener
  whole : tokens.countP Token.isCloser = tokens.countP Token.isOpener

instance (tokens : List Token) : Decidable (Balanced tokens) :=
  decidable_of_iff ((∀ p ∈ tokens.inits, p.countP Token.isCloser ≤ p.countP Token.isOpener) ∧
      tokens.countP Token.isCloser = tokens.countP Token.isOpener)
    ⟨fun h => ⟨fun p hp => h.1 p ((List.mem_inits p tokens).mpr hp), h.2⟩,
      fun h => ⟨fun p hp => h.closed p ((List.mem_inits p tokens).mp hp), h.whole⟩⟩

namespace Balanced

variable {p s : List Token}

theorem closers_le (h : Balanced (p ++ s)) : p.countP Token.isCloser ≤ p.countP Token.isOpener :=
  h.closed p (List.prefix_append p s)

theorem openers_le (h : Balanced (p ++ s)) : s.countP Token.isOpener ≤ s.countP Token.isCloser := by
  have hp := h.closers_le
  have hwhole := h.whole
  rw [List.countP_append, List.countP_append] at hwhole
  omega

end Balanced

theorem closeOffset_append {depth n : Nat} {s : List Token} (h : closeOffset depth s = some n) (x : List Token) :
    closeOffset depth (s ++ x) = some n ∧ n < s.length := by
  induction s generalizing depth n with
  | nil => cases h
  | cons t s ih =>
      rw [closeOffset] at h
      rw [List.cons_append, closeOffset, List.length_cons]
      split_ifs at h ⊢
      · cases h
        exact ⟨rfl, Nat.succ_pos _⟩
      · obtain ⟨m, hm, rfl⟩ := Option.map_eq_some_iff.mp h
        obtain ⟨hsame, hlt⟩ := ih hm
        exact ⟨by rw [hsame, Option.map_some], Nat.succ_lt_succ hlt⟩

theorem exists_closeOffset {depth : Nat} {s : List Token} (hdepth : 0 < depth)
    (h : depth + s.countP Token.isOpener ≤ s.countP Token.isCloser) : ∃ n, closeOffset depth s = some n := by
  induction s generalizing depth with
  | nil =>
      simp only [List.countP_nil] at h
      omega
  | cons t s ih =>
      rw [closeOffset]
      split_ifs with hends
      · exact ⟨0, rfl⟩
      · have hnext : ∃ n, closeOffset (depthAfter depth t) s = some n := by
          apply ih
          · cases t <;> simp [Token.isCloser, depthAfter] at hends ⊢ <;> omega
          · cases t <;> simp [List.countP_cons, Token.isCloser, Token.isOpener, depthAfter] at hends h ⊢ <;> omega
        obtain ⟨n, hn⟩ := hnext
        exact ⟨n + 1, by rw [hn]; rfl⟩

theorem Balanced.exists_close {p s : List Token} {shape : Bracket} (h : Balanced (p ++ .opener shape :: s)) :
    ∃ n, closeOffset 0 (.opener shape :: s) = some n := by
  have hcount := h.openers_le
  simp only [List.countP_cons, Token.isOpener, Token.isCloser] at hcount
  obtain ⟨n, hn⟩ := @exists_closeOffset 1 s Nat.one_pos (by simpa [Nat.add_comm] using hcount)
  exact ⟨n + 1, by simp [closeOffset, Token.isCloser, depthAfter, hn]⟩

def depthBefore (depth : Nat) : Token → Nat
  | .closer _ => depth + 1
  | .opener _ => depth - 1
  | _ => depth

theorem openOffset_cons (depth : Nat) (t : Token) (s : List Token) :
    openOffset depth (t :: s) =
      if t.isOpener && depth - 1 = 0 then some 0 else (openOffset (depthBefore depth t) s).map (· + 1) := by
  cases t <;> simp [openOffset, depthBefore]

theorem openOffset_append {depth n : Nat} {s : List Token} (h : openOffset depth s = some n) (x : List Token) :
    openOffset depth (s ++ x) = some n ∧ ∃ p shape r, s = p ++ .opener shape :: r ∧ p.length = n := by
  induction s generalizing depth n with
  | nil => cases h
  | cons t s ih =>
      rw [openOffset_cons] at h
      rw [List.cons_append, openOffset_cons]
      split_ifs at h ⊢ with hends
      · cases h
        refine ⟨rfl, ?_⟩
        cases t with
        | opener shape => exact ⟨[], shape, s, rfl, rfl⟩
        | _ => simp [Token.isOpener] at hends
      · obtain ⟨m, hm, rfl⟩ := Option.map_eq_some_iff.mp h
        obtain ⟨hsame, p, shape, r, rfl, rfl⟩ := ih hm
        exact ⟨by rw [hsame, Option.map_some], t :: p, shape, r, rfl, rfl⟩

theorem exists_openOffset {depth : Nat} {s : List Token} (hdepth : 0 < depth)
    (h : depth + s.countP Token.isCloser ≤ s.countP Token.isOpener) : ∃ n, openOffset depth s = some n := by
  induction s generalizing depth with
  | nil =>
      simp only [List.countP_nil] at h
      omega
  | cons t s ih =>
      rw [openOffset_cons]
      split_ifs with hends
      · exact ⟨0, rfl⟩
      · have hnext : ∃ n, openOffset (depthBefore depth t) s = some n := by
          apply ih
          · cases t <;> simp [Token.isOpener, depthBefore] at hends ⊢ <;> omega
          · cases t <;> simp [List.countP_cons, Token.isCloser, Token.isOpener, depthBefore] at hends h ⊢ <;> omega
        obtain ⟨n, hn⟩ := hnext
        exact ⟨n + 1, by rw [hn]; rfl⟩

theorem Balanced.exists_open {before after : List Token} {shape : Bracket}
    (h : Balanced ((.closer shape :: before).reverse ++ after)) :
    ∃ n p other r, .closer shape :: before = p ++ .opener other :: r ∧ p.length = n ∧
      ∀ x, openOffset 0 (.closer shape :: before ++ x) = some n := by
  have hcount := h.closers_le
  simp only [List.countP_reverse, List.countP_cons, Token.isOpener, Token.isCloser] at hcount
  obtain ⟨m, hm⟩ := @exists_openOffset 1 before Nat.one_pos (by simpa [Nat.add_comm] using hcount)
  have hopen : openOffset 0 (.closer shape :: before) = some (m + 1) := by
    simp [openOffset_cons, Token.isOpener, depthBefore, hm]
  obtain ⟨-, p, other, r, hsplit, hp⟩ := openOffset_append hopen []
  exact ⟨m + 1, p, other, r, hsplit, hp, fun x => (openOffset_append hopen x).1⟩

namespace JavaScript

/-- What follows an expression in brackets: nothing, or the closing bracket and then signs of no meaning. -/
structure Ends (post : List Token) : Prop where
  closer : ∀ t ∈ post.head?, t = .closer .round
  plain : ∀ t ∈ post.tail, t = .symbol .other ∨ t = .literal

theorem Ends.nil : Ends [] := ⟨by simp, by simp⟩

theorem Ends.cons (rest : List Token) (h : ∀ t ∈ rest, t = .symbol .other ∨ t = .literal) :
    Ends (.closer .round :: rest) :=
  ⟨by simp, h⟩

/-- The names that tokens read after an opening bracket and neither declare nor have built in. -/
def enclosedNames (typed : Bool) (tokens : List Token) : List String :=
  readFrom (fun text => isBuiltIn typed text || (declaredFrom [.opener .round] tokens).contains text) [.opener .round]
    tokens

section Enclosed

variable {pre post : List Token} (hpre : pre.head? = some (.opener .round)) (hpost : Ends post)

include hpre in
theorem head?_enclosed (before : List Token) : (before ++ pre).head? = (before ++ [Token.opener .round]).head? := by
  cases before with
  | nil => exact hpre
  | cons t before => rfl

include hpost in
theorem head?_append_ends (after : List Token) {t : Token} (ht : t ≠ .closer .round) :
    ((after ++ post).head? == some t) = (after.head? == some t) := by
  cases after with
  | cons u after => rfl
  | nil =>
      cases post with
      | nil => rfl
      | cons u post =>
          have hu : u = .closer .round := hpost.closer u rfl
          simp [hu, Ne.symm ht]

theorem bindings_append {s : List Token} {n : Nat} (h : closeOffset 0 s = some n) (x : List Token) :
    bindings (s ++ x) = bindings s := by
  obtain ⟨hsame, hlt⟩ := closeOffset_append h x
  cases s with
  | nil => cases h
  | cons t s =>
      rw [List.cons_append] at hsame ⊢
      rw [bindings, bindings, hsame, h, Option.getD_some, Option.getD_some, ← List.cons_append,
        List.take_append_of_le_length hlt]

include hpost in
theorem hasBody_append_ends {s : List Token} {n : Nat} (h : closeOffset 0 s = some n) : hasBody (s ++ post) = hasBody s := by
  obtain ⟨hsame, hlt⟩ := closeOffset_append h post
  rw [hasBody, hasBody, hsame, h]
  dsimp only
  rw [← List.head?_drop, ← List.head?_drop, List.drop_append_of_le_length hlt]
  exact head?_append_ends hpost _ (by decide)

theorem variableNames_plain {s : List Token} (h : ∀ t ∈ s, t = .symbol .other ∨ t = .literal) (mode : VariableMode) :
    variableNames mode s = [] := by
  induction s generalizing mode with
  | nil => rw [variableNames]
  | cons t s ih =>
      obtain ⟨ht, hs⟩ := List.forall_mem_cons.mp h
      rcases ht with rfl | rfl <;> cases mode <;> simp [variableNames, ih hs]

include hpost in
theorem variableNames_ends (mode : VariableMode) : variableNames mode post = [] := by
  cases post with
  | nil => rw [variableNames]
  | cons t post =>
      obtain rfl : t = .closer .round := hpost.closer t rfl
      have hplain (mode : VariableMode) : variableNames mode post = [] := variableNames_plain hpost.plain mode
      cases mode <;> simp [variableNames, hplain]

include hpost in
theorem variableNames_append_ends {p s : List Token} (h : Balanced (p ++ s)) (mode : VariableMode) :
    variableNames mode (s ++ post) = variableNames mode s := by
  induction s generalizing p mode with
  | nil => rw [List.nil_append, variableNames_ends hpost, variableNames]
  | cons t s ih =>
      have hnext (mode : VariableMode) : variableNames mode (s ++ post) = variableNames mode s :=
        ih (List.append_cons p t s ▸ h) mode
      cases mode with
      | value depth =>
          cases t <;> simp [variableNames, hnext]
      | «variable» =>
          cases t with
          | opener shape =>
              obtain ⟨n, hn⟩ := h.exists_close
              have hbindings := bindings_append hn post
              rw [List.cons_append] at hbindings ⊢
              cases shape <;> simp [variableNames, hnext, hbindings]
          | _ => simp [variableNames, hnext]

include hpost in
theorem bindings_append_ends {p s : List Token} (h : Balanced (p ++ s)) (hs : s.head? = some (.opener .round)) :
    bindings (s ++ post) = bindings s ∧ hasBody (s ++ post) = hasBody s := by
  obtain ⟨r, rfl⟩ := List.head?_eq_some_iff.mp hs
  obtain ⟨n, hn⟩ := h.exists_close
  exact ⟨bindings_append hn post, hasBody_append_ends hpost hn⟩

include hpost in
theorem parameters_append_ends {p s : List Token} (h : Balanced (p ++ s)) (isFunction : Bool) (name : List String) :
    (if isFunction && (s ++ post).head? == some (.opener .round) then name ++ bindings (s ++ post) else name) =
      if isFunction && s.head? == some (.opener .round) then name ++ bindings s else name := by
  rw [head?_append_ends hpost s (by decide)]
  split_ifs with hopens
  · simp only [Bool.and_eq_true, beq_iff_eq] at hopens
    rw [(bindings_append_ends hpost h hopens.2).1]
  · rfl

include hpost in
theorem definitionNames_append_ends {p s : List Token} (h : Balanced (p ++ s)) (isFunction : Bool) :
    definitionNames isFunction (s ++ post) = definitionNames isFunction s := by
  have hend : definitionNames isFunction post = [] := by
    cases post with
    | nil => simp [definitionNames]
    | cons t post =>
        obtain rfl : t = .closer .round := hpost.closer t rfl
        simp [definitionNames]
  cases s with
  | nil =>
      rw [List.nil_append, hend]
      simp [definitionNames]
  | cons t s =>
      cases t with
      | name text => exact parameters_append_ends hpost (List.append_cons p _ s ▸ h) isFunction [text]
      | _ => exact parameters_append_ends hpost h isFunction []

include hpre hpost in
theorem isMethod_enclosed {p after : List Token} (h : Balanced (p ++ after)) (before : List Token) (text : String) :
    isMethod (before ++ pre) text (after ++ post) = isMethod (before ++ [.opener .round]) text after := by
  rw [isMethod, isMethod, head?_enclosed hpre, head?_append_ends hpost after (by decide)]
  by_cases hopens : after.head? = some (.opener .round)
  · rw [(bindings_append_ends hpost h hopens).2]
  · have hno : (after.head? == some (.opener .round)) = false := beq_eq_false_iff_ne.mpr hopens
    simp only [hno, Bool.and_false, Bool.false_and]

include hpre hpost in
theorem namesAtWord_enclosed {p after : List Token} (h : Balanced (p ++ after)) (before : List Token) (text : String) :
    namesAtWord (before ++ pre) text (after ++ post) = namesAtWord (before ++ [.opener .round]) text after := by
  have hbindings (hopens : after.head? = some (.opener .round)) : bindings (after ++ post) = bindings after :=
    (bindings_append_ends hpost h hopens).1
  rw [namesAtWord, namesAtWord, variableNames_append_ends hpost h, definitionNames_append_ends hpost h,
    head?_append_ends hpost after (by decide), isMethod_enclosed hpre hpost h]
  split_ifs with _ _ hcatch hmethod
  · rfl
  · rfl
  · simp only [Bool.and_eq_true, beq_iff_eq] at hcatch
    exact hbindings hcatch.2
  · simp only [isMethod, Bool.and_eq_true, beq_iff_eq] at hmethod
    exact hbindings hmethod.1.2
  · rfl

include hpre in
theorem namesAtArrow_enclosed {before after : List Token} (h : Balanced (before.reverse ++ after)) :
    namesAtArrow (before ++ pre) (after ++ post) = namesAtArrow (before ++ [.opener .round]) after := by
  cases before with
  | nil =>
      obtain ⟨r, rfl⟩ := List.head?_eq_some_iff.mp hpre
      rfl
  | cons t before =>
      cases t with
      | closer shape =>
          cases shape with
          | round =>
              obtain ⟨n, p, other, r, hsplit, hp, hopen⟩ := h.exists_open
              have hparameters (x : List Token) :
                  ((.closer .round :: before ++ x).take (n + 1)).reverse = .opener other :: p.reverse := by
                have hcut : p ++ .opener other :: r ++ x = (p ++ [.opener other]) ++ (r ++ x) := by simp
                rw [hsplit, hcut, List.take_left' (by simp [hp]), List.reverse_append]
                rfl
              have hgroup : Balanced (r.reverse ++ .opener other :: (p.reverse ++ after)) := by
                rw [hsplit] at h
                simpa using h
              obtain ⟨m, hm⟩ := hgroup.exists_close
              have hbindings := bindings_append hm post
              have harrow (x s : List Token) : namesAtArrow (.closer .round :: before ++ x) s =
                  bindings (.opener other :: (p.reverse ++ s)) := by
                rw [List.cons_append, namesAtArrow, ← List.cons_append, hopen]
                dsimp only
                rw [hparameters, List.cons_append]
              rw [harrow, harrow, ← hbindings, List.cons_append, List.append_assoc]
          | _ => rfl
      | _ => rfl

theorem declaredFrom_plain {s : List Token} (h : ∀ t ∈ s, t = .symbol .other ∨ t = .literal) (before : List Token) :
    declaredFrom before s = [] := by
  induction s generalizing before with
  | nil => rfl
  | cons t s ih =>
      obtain ⟨ht, hs⟩ := List.forall_mem_cons.mp h
      rcases ht with rfl | rfl <;> simp [declaredFrom, ih hs]

theorem readFrom_plain {s : List Token} (h : ∀ t ∈ s, t = .symbol .other ∨ t = .literal) (known : String → Bool)
    (before : List Token) : readFrom known before s = [] := by
  induction s generalizing before with
  | nil => rfl
  | cons t s ih =>
      obtain ⟨ht, hs⟩ := List.forall_mem_cons.mp h
      rcases ht with rfl | rfl <;> simp [readFrom, ih hs]

include hpre hpost in
theorem declaredFrom_enclosed {before after : List Token} (h : Balanced (before.reverse ++ after)) :
    declaredFrom (before ++ pre) (after ++ post) = declaredFrom (before ++ [.opener .round]) after := by
  induction after generalizing before with
  | nil =>
      cases post with
      | nil => rfl
      | cons t post =>
          obtain rfl : t = .closer .round := hpost.closer t rfl
          have hplain (before : List Token) : declaredFrom before post = [] := declaredFrom_plain hpost.plain before
          simp [declaredFrom, hplain]
  | cons t after ih =>
      have hnext : Balanced ((t :: before).reverse ++ after) := by simpa using h
      have hrest : declaredFrom (t :: (before ++ pre)) (after ++ post) =
          declaredFrom (t :: (before ++ [.opener .round])) after := ih hnext
      have harrow : namesAtArrow (before ++ pre) (t :: (after ++ post)) =
          namesAtArrow (before ++ [.opener .round]) (t :: after) := namesAtArrow_enclosed hpre h
      cases t with
      | name text => simp [declaredFrom, hrest, namesAtWord_enclosed hpre hpost hnext]
      | symbol sign => cases sign <;> simp [declaredFrom, hrest, harrow]
      | _ => simp [declaredFrom, hrest]

include hpre hpost in
theorem readFrom_enclosed (known : String → Bool) {before after : List Token} (h : Balanced (before.reverse ++ after)) :
    readFrom known (before ++ pre) (after ++ post) = readFrom known (before ++ [.opener .round]) after := by
  induction after generalizing before with
  | nil =>
      cases post with
      | nil => rfl
      | cons t post =>
          obtain rfl : t = .closer .round := hpost.closer t rfl
          have hplain (before : List Token) : readFrom known before post = [] := readFrom_plain hpost.plain known before
          simp [readFrom, hplain]
  | cons t after ih =>
      have hnext : Balanced ((t :: before).reverse ++ after) := by simpa using h
      have hrest : readFrom known (t :: (before ++ pre)) (after ++ post) =
          readFrom known (t :: (before ++ [.opener .round])) after := ih hnext
      cases t with
      | name text =>
          have hread : isRead (before ++ pre) text (after ++ post) = isRead (before ++ [.opener .round]) text after := by
            rw [isRead, isRead, isKey, isKey, head?_enclosed hpre, isMethod_enclosed hpre hpost hnext,
              head?_append_ends hpost after (by decide)]
          simp only [List.cons_append, readFrom, hrest, hread]
      | _ => simp only [List.cons_append, readFrom, hrest]

include hpre hpost in
/-- What balanced tokens declare and read in brackets does not depend on what stands around the brackets. -/
theorem readFrom_enclosedNames (typed : Bool) {tokens : List Token} (h : Balanced tokens) :
    readFrom (fun text => isBuiltIn typed text || (declaredFrom pre (tokens ++ post)).contains text) pre (tokens ++ post) =
      enclosedNames typed tokens := by
  have hdeclared : declaredFrom pre (tokens ++ post) = declaredFrom [.opener .round] tokens :=
    @declaredFrom_enclosed pre post hpre hpost [] tokens h
  rw [hdeclared]
  exact @readFrom_enclosed pre post hpre hpost _ [] tokens h

end Enclosed

theorem freeNamesOf_bracketed (typed : Bool) {tokens post : List Token} (h : Balanced tokens) (hpost : Ends post) :
    freeNamesOf typed (.opener .round :: (tokens ++ post)) = enclosedNames typed tokens :=
  @readFrom_enclosedNames [.opener .round] post rfl hpost typed tokens h

theorem freeNamesOf_template (typed : Bool) {tokens : List Token} (h : Balanced tokens) :
    freeNamesOf typed (expressionTokens tokens ++ [.literal]) = enclosedNames typed tokens := by
  have hends : Ends [.closer .round, .symbol .other, .literal] := .cons _ (by simp)
  have hexpression : expressionTokens tokens ++ [.literal] =
      .literal :: .symbol .other :: .opener .round :: (tokens ++ [.closer .round, .symbol .other, .literal]) := by
    simp [expressionTokens]
  rw [hexpression]
  exact @readFrom_enclosedNames [.opener .round, .symbol .other, .literal] _ rfl hends typed tokens h

end JavaScript

end BookCompiler.Script
