import BookCompiler.Proofs.Outcome
import BookCompiler.Script.JavaScript
import BookCompiler.Script.Python
import Mathlib.Tactic.SplitIfs

namespace BookCompiler.Script

namespace JavaScript

/-- Where the reading of a template expression stands. -/
structure Cursor where
  mode : ExpressionMode
  depth : Nat
  escaped : Bool
  previous : Char

namespace Cursor

def start : Cursor := ⟨.code, 1, false, '\x7b'⟩

def length (k : Cursor) (s : List Char) : Except Failure Nat := expressionLength k.mode k.depth k.escaped k.previous s

def IsOpen (k : Cursor) (s : List Char) : Prop := k.length s = .error (.fault .openTemplateExpression)

def closes (k : Cursor) (c : Char) : Bool := k.mode = .code && !k.escaped && c = '\x7d'

def modeAfter (k : Cursor) (c : Char) : ExpressionMode :=
  match k.mode with
  | .code => if c = '\x60' then .template 0 else if c = '"' || c = '\'' then .quoted c else .code
  | .quoted quote => if c = '\n' || c = quote then .code else .quoted quote
  | .template nested =>
    if c = '\x7b' && k.previous = '$' then .template (nested + 1)
    else if c = '\x7d' && 0 < nested then .template (nested - 1)
    else if c = '\x60' && nested = 0 then .code
    else .template nested

def next (k : Cursor) (c : Char) : Cursor :=
  if k.escaped then { k with escaped := false, previous := c }
  else if k.mode ≠ .code && c = '\\' then { k with escaped := true, previous := c }
  else
    let depth :=
      if k.closes c then k.depth - 1
      else if k.mode = .code && c = '\x7b' then k.depth + 1
      else k.depth
    ⟨k.modeAfter c, depth, false, c⟩

def after (k : Cursor) (s : List Char) : Cursor := s.foldl next k

theorem length_cons (k : Cursor) (c : Char) (rest : List Char) :
    k.length (c :: rest) =
      if k.closes c && k.depth ≤ 1 then if k.depth = 0 then .error .crash else .ok 0
      else ((k.next c).length rest).map (· + 1) := by
  obtain ⟨mode, depth, escaped, previous⟩ := k
  rw [length, expressionLength.eq_def]
  cases escaped with
  | true => simp [closes, next, length]
  | false =>
      cases mode with
      | code =>
          by_cases hopen : c = '\x7b'
          · simp [closes, next, modeAfter, length, hopen]
          · by_cases hclose : c = '\x7d'
            · match depth with
              | 0 => simp [closes, hclose]
              | 1 => simp [closes, hclose]
              | depth + 2 => simp [closes, next, modeAfter, length, hclose]
            · simp only [hopen, hclose, closes, next, modeAfter, length]
              split_ifs <;> simp_all
      | quoted quote =>
          by_cases hescape : c = '\\'
          · simp [closes, next, length, hescape]
          · simp only [hescape, closes, next, modeAfter, length]
            split_ifs <;> simp_all
      | template nested =>
          by_cases hescape : c = '\\'
          · simp [closes, next, length, hescape]
          · simp only [hescape, closes, next, modeAfter, length]
            split_ifs <;> simp_all

theorem isOpen_nil (k : Cursor) : k.IsOpen [] := rfl

theorem isOpen_cons (k : Cursor) (c : Char) (rest : List Char) :
    k.IsOpen (c :: rest) ↔ ¬ (k.closes c = true ∧ k.depth ≤ 1) ∧ (k.next c).IsOpen rest := by
  rw [IsOpen, IsOpen, length_cons]
  by_cases hends : k.closes c = true ∧ k.depth ≤ 1
  · rw [if_pos (by simpa using hends)]
    split_ifs <;> simp [hends]
  · rw [if_neg (by simpa using hends)]
    cases (k.next c).length rest <;> simp [hends, Except.map]

theorem length_append {k : Cursor} {p : List Char} (h : k.IsOpen p) (s : List Char) :
    k.length (p ++ s) = ((k.after p).length s).map (p.length + ·) := by
  induction p generalizing k with
  | nil =>
      rw [List.nil_append]
      change k.length s = (k.length s).map (0 + ·)
      cases k.length s <;> simp [Except.map]
  | cons c p ih =>
      obtain ⟨hends, hrest⟩ := (isOpen_cons k c p).mp h
      rw [List.cons_append, length_cons, if_neg (by simpa using hends), ih hrest]
      change _ = (((k.next c).after p).length s).map _
      cases ((k.next c).after p).length s with
      | error e => rfl
      | ok n =>
          simp only [Except.map, List.length_cons, Except.ok.injEq]
          omega

theorem length_append_of_ok {k : Cursor} {p : List Char} {n : Nat} (h : k.length p = .ok n) (s : List Char) :
    k.length (p ++ s) = .ok n ∧ n < p.length := by
  induction p generalizing k n with
  | nil => cases h
  | cons c p ih =>
      rw [length_cons] at h
      rw [List.cons_append, length_cons, List.length_cons]
      split_ifs at h ⊢
      · cases h
        exact ⟨rfl, Nat.succ_pos _⟩
      · obtain ⟨m, hm, rfl⟩ := map_ok h
        obtain ⟨hsame, hlt⟩ := ih hm
        rw [hsame]
        exact ⟨rfl, Nat.succ_lt_succ hlt⟩

theorem depth_next_pos {k : Cursor} {c : Char} (hdepth : 1 ≤ k.depth) (h : ¬ (k.closes c = true ∧ k.depth ≤ 1)) :
    1 ≤ (k.next c).depth := by
  rw [next]
  split_ifs with _ _ hcloses
  · exact hdepth
  · exact hdepth
  · have : ¬ k.depth ≤ 1 := fun hle => h ⟨hcloses, hle⟩
    dsimp only
    omega
  · exact Nat.le_add_left 1 _
  · exact hdepth

theorem depth_pos {k : Cursor} {p : List Char} (h : k.IsOpen p) (hdepth : 1 ≤ k.depth) : 1 ≤ (k.after p).depth := by
  induction p generalizing k with
  | nil => exact hdepth
  | cons c p ih =>
      obtain ⟨hends, hrest⟩ := (isOpen_cons k c p).mp h
      exact ih hrest (depth_next_pos hdepth hends)

theorem isOpen_or_ok {k : Cursor} (hdepth : 1 ≤ k.depth) (s : List Char) : k.IsOpen s ∨ ∃ n, k.length s = .ok n := by
  induction s generalizing k with
  | nil => exact Or.inl rfl
  | cons c s ih =>
      by_cases hends : k.closes c = true ∧ k.depth ≤ 1
      · right
        refine ⟨0, ?_⟩
        rw [length_cons, if_pos (by simpa using hends), if_neg (Nat.ne_of_gt hdepth)]
      · rcases ih (depth_next_pos hdepth hends) with hopen | ⟨n, hn⟩
        · exact Or.inl ((isOpen_cons k c s).mpr ⟨hends, hopen⟩)
        · right
          refine ⟨n + 1, ?_⟩
          rw [length_cons, if_neg (by simpa using hends), hn]
          rfl

end Cursor

end JavaScript

namespace Python

def openNext (n : Nat) (c : Char) : Nat :=
  if c = '\x7b' || c = '(' || c = '[' then n + 1
  else if c = ')' || c = ']' || c = '\x7d' then n - 1
  else n

/-- The brace that closes a replacement field is the first closing one before which at most one bracket is open.
This gives its position and how many are open before it. -/
def closingBrace (n : Nat) : List Char → Option (Nat × Nat)
  | [] => none
  | c :: rest =>
    if c = '\x7d' && n ≤ 1 then some (0, n)
    else (closingBrace (openNext n c) rest).map fun (position, n) => (position + 1, n)

def expressionNext (depth : Nat) (expression : Option Nat) (position : Nat) (c : Char) (following : Option Char) :
    Option Nat :=
  if depth = 1 && expression.isNone && (c = ':' || (c = '!' && following != some '=')) then some position
  else expression

theorem fieldLengths_cons (depth : Nat) (expression : Option Nat) (position : Nat) (c : Char) (rest : List Char) :
    fieldLengths depth expression position (c :: rest) =
      if c = '\x7d' && depth ≤ 1 then
        if depth = 0 then .error .crash else .ok (expression.getD position, position + 1)
      else fieldLengths (openNext depth c) (expressionNext depth expression position c rest.head?) (position + 1)
        rest := by
  rw [fieldLengths.eq_def]
  by_cases hclose : c = '\x7d'
  · subst hclose
    match depth with
    | 0 => simp
    | 1 => simp
    | depth + 2 => simp [openNext, expressionNext]
  · simp only [hclose, openNext, expressionNext]
    split_ifs <;> simp_all

/-- What the closing brace of a field makes of it: the field ends behind the brace, unless there is none, or no bracket
is open before it. -/
def fieldEnd : Option (Nat × Nat) → Except Failure Nat
  | none => .error (.fault .openReplacementField)
  | some (_, 0) => .error .crash
  | some (position, _ + 1) => .ok (position + 1)

theorem fieldEnd_map_succ (brace : Option (Nat × Nat)) :
    fieldEnd (brace.map fun (position, n) => (position + 1, n)) = (fieldEnd brace).map (· + 1) := by
  match brace with
  | none => rfl
  | some (_, 0) => rfl
  | some (_, _ + 1) => rfl

theorem fieldLengths_eq_fieldEnd (depth : Nat) (expression : Option Nat) (position : Nat) (s : List Char) :
    (fieldLengths depth expression position s).map Prod.snd = (fieldEnd (closingBrace depth s)).map (position + ·) := by
  induction s generalizing depth expression position with
  | nil => rfl
  | cons c s ih =>
      rw [fieldLengths_cons, closingBrace]
      split_ifs with hlow hzero
      · rw [hzero]
        rfl
      · obtain ⟨n, rfl⟩ := Nat.exists_eq_succ_of_ne_zero hzero
        rfl
      · rw [ih, fieldEnd_map_succ]
        cases fieldEnd (closingBrace (openNext depth c) s) with
        | error e => rfl
        | ok n =>
            simp only [Except.map, Except.ok.injEq]
            omega

theorem closingBrace_append {n : Nat} {s : List Char} {brace : Nat × Nat} (h : closingBrace n s = some brace)
    (t : List Char) : closingBrace n (s ++ t) = some brace := by
  induction s generalizing n brace with
  | nil => cases h
  | cons c s ih =>
      rw [List.cons_append]
      rw [closingBrace] at h ⊢
      split_ifs at h ⊢
      · exact h
      · obtain ⟨brace, hbrace, rfl⟩ := Option.map_eq_some_iff.mp h
        rw [ih hbrace]
        rfl

/-- A replacement field could begin in a text whose closing brace finds no bracket open. -/
def Overclosed (s : List Char) : Prop := ∃ p r n, s = p ++ '\x7b' :: r ∧ closingBrace 1 r = some (n, 0)

theorem Overclosed.mono {s t : List Char} (h : Overclosed s) (hst : s <:+: t) : Overclosed t := by
  obtain ⟨p, r, n, rfl, hbrace⟩ := h
  obtain ⟨before, after, rfl⟩ := hst
  exact ⟨before ++ p, r ++ after, n, by simp, closingBrace_append hbrace after⟩

theorem fieldEnd_eq_crash_iff {brace : Option (Nat × Nat)} :
    fieldEnd brace = .error .crash ↔ ∃ n, brace = some (n, 0) := by
  match brace with
  | none => simp [fieldEnd]
  | some (_, 0) => simp [fieldEnd]
  | some (_, _ + 1) => simp [fieldEnd]

theorem map_snd_fieldLengths (s : List Char) :
    (fieldLengths 1 none 0 s).map Prod.snd = fieldEnd (closingBrace 1 s) := by
  rw [fieldLengths_eq_fieldEnd]
  cases fieldEnd (closingBrace 1 s) <;> simp [Except.map]

theorem fieldLengths_eq_crash_iff (s : List Char) :
    fieldLengths 1 none 0 s = .error .crash ↔ ∃ n, closingBrace 1 s = some (n, 0) := by
  rw [← map_eq_error_iff (f := Prod.snd), map_snd_fieldLengths, fieldEnd_eq_crash_iff]

end Python

end BookCompiler.Script
