namespace BookCompiler

inductive ExpectUnit where
  | characters
  | words
  | sentences
  | lines
  | paragraphs
  | pages
  deriving Repr, DecidableEq

namespace ExpectUnit

def all : List ExpectUnit := [characters, words, sentences, lines, paragraphs, pages]

def name : ExpectUnit → String
  | characters => "characters"
  | words => "words"
  | sentences => "sentences"
  | lines => "lines"
  | paragraphs => "paragraphs"
  | pages => "pages"

def plural : ExpectUnit → String
  | characters => "CHARACTERS"
  | words => "WORDS"
  | sentences => "SENTENCES"
  | lines => "LINES"
  | paragraphs => "PARAGRAPHS"
  | pages => "PAGES"

def singular : ExpectUnit → String
  | characters => "CHARACTER"
  | words => "WORD"
  | sentences => "SENTENCE"
  | lines => "LINE"
  | paragraphs => "PARAGRAPH"
  | pages => "PAGE"

end ExpectUnit

inductive ExpectSign where
  | exactly
  | minimum
  | maximum
  deriving Repr, DecidableEq

def ExpectSign.name : ExpectSign → String
  | exactly => "EXACTLY"
  | minimum => "MINIMUM"
  | maximum => "MAXIMUM"

structure Bounds where
  min : Option UInt32 := none
  max : Option UInt32 := none
  deriving Repr, DecidableEq

def Bounds.crossed (b : Bounds) : Option (UInt32 × UInt32) :=
  match b.min, b.max with
  | some min, some max => if max < min then some (min, max) else none
  | _, _ => none

theorem Bounds.crossed_eq_none_iff (b : Bounds) :
    b.crossed = none ↔ ∀ min ∈ b.min, ∀ max ∈ b.max, min ≤ max := by
  obtain ⟨min, max⟩ := b
  cases min with
  | none => simp [crossed]
  | some min =>
    cases max with
    | none => simp [crossed]
    | some max => simp [crossed]

/-- The bounds on the length of a result, at most one entry for each unit. -/
structure Expectations where
  characters : Option Bounds := none
  words : Option Bounds := none
  sentences : Option Bounds := none
  lines : Option Bounds := none
  paragraphs : Option Bounds := none
  pages : Option Bounds := none
  deriving Repr, DecidableEq

namespace Expectations

def get (e : Expectations) : ExpectUnit → Option Bounds
  | .characters => e.characters
  | .words => e.words
  | .sentences => e.sentences
  | .lines => e.lines
  | .paragraphs => e.paragraphs
  | .pages => e.pages

def set (e : Expectations) (unit : ExpectUnit) (b : Bounds) : Expectations :=
  match unit with
  | .characters => { e with characters := some b }
  | .words => { e with words := some b }
  | .sentences => { e with sentences := some b }
  | .lines => { e with lines := some b }
  | .paragraphs => { e with paragraphs := some b }
  | .pages => { e with pages := some b }

/-- The expectations with an entry for the unit, an empty one if there was none. -/
def enter (e : Expectations) (unit : ExpectUnit) : Expectations :=
  e.set unit ((e.get unit).getD {})

def toList (e : Expectations) : List (ExpectUnit × Bounds) :=
  ExpectUnit.all.filterMap fun unit => (e.get unit).map fun b => (unit, b)

def isEmpty (e : Expectations) : Bool := e.toList.isEmpty

@[simp] theorem get_set_self (e : Expectations) (unit : ExpectUnit) (b : Bounds) :
    (e.set unit b).get unit = some b := by
  cases unit <;> rfl

@[simp] theorem get_set_of_ne (e : Expectations) {unit other : ExpectUnit} (h : other ≠ unit)
    (b : Bounds) : (e.set unit b).get other = e.get other := by
  cases unit <;> cases other <;> simp_all [get, set]

theorem set_set (e : Expectations) (unit : ExpectUnit) (a b : Bounds) :
    (e.set unit a).set unit b = e.set unit b := by
  cases unit <;> rfl

theorem ext_get {e f : Expectations} (h : ∀ unit, e.get unit = f.get unit) : e = f := by
  have hcharacters := h .characters
  have hwords := h .words
  have hsentences := h .sentences
  have hlines := h .lines
  have hparagraphs := h .paragraphs
  have hpages := h .pages
  cases e
  cases f
  simp_all [get]

theorem enter_of_get_eq_some {e : Expectations} {unit : ExpectUnit} {b : Bounds}
    (h : e.get unit = some b) : e.enter unit = e := by
  refine ext_get fun other => ?_
  by_cases hother : other = unit
  · rw [hother, enter, get_set_self, h, Option.getD_some]
  · rw [enter, get_set_of_ne e hother]

def setAll (e : Expectations) (entries : List (ExpectUnit × Bounds)) : Expectations :=
  entries.foldl (fun e entry => e.set entry.1 entry.2) e

theorem get_setAll_filterMap (e f : Expectations) (units : List ExpectUnit) (unit : ExpectUnit) :
    (f.setAll (units.filterMap fun u => (e.get u).map fun b => (u, b))).get unit =
      if unit ∈ units then (e.get unit).or (f.get unit) else f.get unit := by
  induction units generalizing f with
  | nil => rfl
  | cons u units ih =>
      cases hb : e.get u with
      | none =>
          rw [List.filterMap_cons_none (by rw [hb]; rfl), ih]
          by_cases h : unit = u
          · simp [h, hb]
          · simp [h]
      | some b =>
          rw [List.filterMap_cons_some (by rw [hb]; rfl)]
          change ((f.set u b).setAll _).get unit = _
          rw [ih]
          by_cases h : unit = u
          · simp [h, hb]
          · simp [h]

theorem mem_all (unit : ExpectUnit) : unit ∈ ExpectUnit.all := by cases unit <;> decide

theorem setAll_toList (e : Expectations) : setAll {} e.toList = e := by
  apply ext_get
  intro unit
  rw [toList, get_setAll_filterMap, if_pos (mem_all unit)]
  cases unit <;> simp [get]

end Expectations

end BookCompiler
