import BookCompiler.Proofs.Command.Effect
import BookCompiler.Proofs.Draft.Slots

namespace BookCompiler

open Attempt

structure Amount where
  sign : ExpectSign
  unit : ExpectUnit
  value : UInt32
  deriving Repr, DecidableEq

def ExpectSign.least? (sign : ExpectSign) (amount : UInt32) : Option UInt32 :=
  if sign = .maximum then none else some amount

def ExpectSign.most? (sign : ExpectSign) (amount : UInt32) : Option UInt32 :=
  if sign = .minimum then none else some amount

namespace Amount

def command (a : Amount) : Command := .expectAmount a.sign a.unit a.value

def least? (a : Amount) : Option UInt32 := a.sign.least? a.value

def most? (a : Amount) : Option UInt32 := a.sign.most? a.value

end Amount

/-- Amounts that can stand together: for no unit there are two bounds from one side, or bounds that cross. -/
structure Consistent (amounts : List Amount) : Prop where
  min : ∀ unit m n, Says amounts Amount.unit Amount.least? unit m →
    Says amounts Amount.unit Amount.least? unit n → m = n
  max : ∀ unit m n, Says amounts Amount.unit Amount.most? unit m →
    Says amounts Amount.unit Amount.most? unit n → m = n
  ordered : ∀ unit m n, Says amounts Amount.unit Amount.least? unit m →
    Says amounts Amount.unit Amount.most? unit n → m ≤ n

theorem Consistent.mono {amounts more : List Amount} (h : Consistent more) (hsub : amounts ⊆ more) :
    Consistent amounts where
  min unit m n hm hn := h.min unit m n (hm.mono hsub) (hn.mono hsub)
  max unit m n hm hn := h.max unit m n (hm.mono hsub) (hn.mono hsub)
  ordered unit m n hm hn := h.ordered unit m n (hm.mono hsub) (hn.mono hsub)

theorem toOption_settle {α : Type} [DecidableEq α] (what : String) (text : α → String) (old : Option α) (new : α) :
    (settle what text old new).toOption = agree old (some new) := by
  cases old with
  | none => rfl
  | some first =>
      rw [settle, agree]
      split
      · rename_i hsame
        rw [hsame]
        rfl
      · rfl

namespace Bounds

theorem toOption_add (b : Bounds) (what : String → String) (sign : ExpectSign) (amount : UInt32) :
    (b.add what sign amount).toOption = (agree b.min (sign.least? amount)).bind fun min =>
      (agree b.max (sign.most? amount)).map fun max => ⟨min, max⟩ := by
  have hmin := toOption_settle (what "Minimum") (fun n : UInt32 => toString n.toNat) b.min amount
  have hmax := toOption_settle (what "Maximum") (fun n : UInt32 => toString n.toNat) b.max amount
  simp only [add, ExpectSign.least?, ExpectSign.most?]
  generalize settle (what "Minimum") _ b.min amount = minimum at hmin ⊢
  generalize settle (what "Maximum") _ b.max amount = maximum at hmax ⊢
  cases sign with
  | exactly =>
      simp only [reduceCtorEq, if_false, ← hmin, ← hmax]
      cases minimum with
      | error e => rfl
      | ok min => cases maximum <;> rfl
  | minimum =>
      simp only [reduceCtorEq, if_false, if_true, ← hmin, agree_none_right]
      cases minimum <;> rfl
  | maximum =>
      simp only [reduceCtorEq, if_false, if_true, ← hmax, agree_none_right]
      cases maximum <;> rfl

/-- The bounds of a unit that these amounts give. -/
structure Holds (b : Bounds) (amounts : List Amount) (unit : ExpectUnit) : Prop where
  min : Gathers b.min (Says amounts Amount.unit Amount.least? unit)
  max : Gathers b.max (Says amounts Amount.unit Amount.most? unit)
  ordered : ∀ m ∈ b.min, ∀ n ∈ b.max, m ≤ n

variable {b c : Bounds} {amounts more : List Amount} {unit : ExpectUnit} {a : Amount}

theorem Holds.eq (hb : b.Holds amounts unit) (hc : c.Holds more unit) (hsame : ∀ a, a ∈ amounts ↔ a ∈ more) :
    b = c := by
  obtain ⟨hmin, hmax, -⟩ := hb
  rw [says_congr hsame] at hmin hmax
  cases b
  cases c
  simp only [mk.injEq]
  exact ⟨hmin.eq hc.min, hmax.eq hc.max⟩

theorem Holds.of_ne (h : b.Holds amounts unit) (hunit : a.unit ≠ unit) : b.Holds (amounts ++ [a]) unit :=
  ⟨h.min.says_of_ne hunit, h.max.says_of_ne hunit, h.ordered⟩

theorem Holds.add_iff (h : b.Holds amounts a.unit) (what : String → String) :
    (b.add what a.sign a.value = .ok c ∧ c.crossed = none) ↔ c.Holds (amounts ++ [a]) a.unit := by
  have hoption : b.add what a.sign a.value = .ok c ↔ (b.add what a.sign a.value).toOption = some c := by
    cases b.add what a.sign a.value <;> simp [Except.toOption]
  rw [hoption, toOption_add, c.crossed_eq_none_iff]
  obtain ⟨min, max⟩ := c
  constructor
  · rintro ⟨hadd, hordered⟩
    obtain ⟨min', hmin, hadd⟩ := Option.bind_eq_some_iff.mp hadd
    obtain ⟨max', hmax, hadd⟩ := Option.map_eq_some_iff.mp hadd
    cases hadd
    exact ⟨(h.min.agree_says_iff rfl min).mp hmin, (h.max.agree_says_iff rfl max).mp hmax, hordered⟩
  · rintro ⟨hmin, hmax, hordered⟩
    have hmin' : agree b.min (a.sign.least? a.value) = some min := (h.min.agree_says_iff rfl min).mpr hmin
    have hmax' : agree b.max (a.sign.most? a.value) = some max := (h.max.agree_says_iff rfl max).mpr hmax
    rw [hmin', hmax']
    exact ⟨rfl, hordered⟩

theorem exists_holds (h : Consistent amounts) (unit : ExpectUnit) : ∃ b : Bounds, b.Holds amounts unit := by
  obtain ⟨min, hmin⟩ := exists_gathers (h.min unit)
  obtain ⟨max, hmax⟩ := exists_gathers (h.max unit)
  exact ⟨⟨min, max⟩, hmin, hmax, fun m hm n hn => h.ordered unit m n ((hmin m).mp hm) ((hmax n).mp hn)⟩

end Bounds

namespace Expectations

/-- Expectations with an entry for each unit that these amounts name, and with the bounds that they give. -/
structure Collects (e : Expectations) (amounts : List Amount) : Prop where
  units : ∀ unit, (e.get unit).isSome = true ↔ ∃ a ∈ amounts, a.unit = unit
  bounds : ∀ unit, ((e.get unit).getD {}).Holds amounts unit

variable {e f : Expectations} {amounts more : List Amount}

theorem collects_nil : Collects {} [] := by
  have hnone (unit : ExpectUnit) : get {} unit = none := by cases unit <;> rfl
  constructor
  · simp [hnone]
  · intro unit
    rw [hnone]
    constructor <;> simp [Gathers, Says]

theorem Collects.consistent (h : e.Collects amounts) : Consistent amounts where
  min unit _ _ hm hn := (h.bounds unit).min.unique hm hn
  max unit _ _ hm hn := (h.bounds unit).max.unique hm hn
  ordered unit m n hm hn :=
    (h.bounds unit).ordered m (((h.bounds unit).min m).mpr hm) n (((h.bounds unit).max n).mpr hn)

theorem Collects.eq (he : e.Collects amounts) (hf : f.Collects more) (hsame : ∀ a, a ∈ amounts ↔ a ∈ more) :
    e = f := by
  apply ext_get
  intro unit
  have hbounds := (he.bounds unit).eq (hf.bounds unit) hsame
  have hunits : (e.get unit).isSome = (f.get unit).isSome := by
    rw [Bool.eq_iff_iff, he.units, hf.units]
    simp only [hsame]
  cases hget : e.get unit <;> cases hget' : f.get unit <;> simp_all

theorem Collects.set (h : e.Collects amounts) {a : Amount} {b : Bounds} (hb : b.Holds (amounts ++ [a]) a.unit) :
    (e.set a.unit b).Collects (amounts ++ [a]) := by
  constructor
  · intro unit
    by_cases hunit : unit = a.unit
    · rw [hunit, get_set_self]
      simp
    · rw [get_set_of_ne _ hunit, h.units]
      simp [or_and_right, exists_or, Ne.symm hunit]
  · intro unit
    by_cases hunit : unit = a.unit
    · rw [hunit, get_set_self]
      exact hb
    · rw [get_set_of_ne _ hunit]
      exact (h.bounds unit).of_ne (Ne.symm hunit)

end Expectations

theorem TaskDraft.expect_amount_iff {d : TaskDraft} {amounts : List Amount} (h : d.expectations.Collects amounts)
    (a : Amount) (e : Expectations) : d.expect a.sign a.unit a.value = .ok e ↔
      ∃ b : Bounds, b.Holds (amounts ++ [a]) a.unit ∧ e = d.expectations.set a.unit b := by
  simp only [expect_eq_ok_iff, (h.bounds a.unit).add_iff]

namespace Workpiece

def expectAll (w : Workpiece) (amounts : List Amount) : Attempt ApplyError Workpiece :=
  each (fun a w => CommandKind.expectAmount.applyToTask a.command w) amounts w

def Expects (w : Workpiece) (v : Workpiece) (amounts : List Amount) : Prop :=
  ∃ e, v = w.withTask { w.task with expectations := e } ∧ e.Collects amounts

variable {v w : Workpiece} {a : Amount} {amounts : List Amount}

theorem applyToTask_command (a : Amount) (w : Workpiece) : CommandKind.expectAmount.applyToTask a.command w =
    .ofResult w (fun e => w.withTask { w.task with expectations := e }) (w.task.expect a.sign a.unit a.value) :=
  w.expect_eq a.sign a.unit a.value

theorem Expects.apply (h : w.Expects v amounts)
    (hok : (CommandKind.expectAmount.applyToTask a.command v).refusal = none) :
    w.Expects (CommandKind.expectAmount.applyToTask a.command v).draft (amounts ++ [a]) := by
  obtain ⟨e, rfl, he⟩ := h
  rw [applyToTask_command] at hok ⊢
  cases hexpect : (w.withTask { w.task with expectations := e }).task.expect a.sign a.unit a.value with
  | error reason => simp [hexpect, ofResult, refused] at hok
  | ok f =>
      obtain ⟨b, hb, rfl⟩ := (TaskDraft.expect_amount_iff he a f).mp hexpect
      exact ⟨_, rfl, he.set hb⟩

theorem Expects.accepts (h : w.Expects v amounts) (hconsistent : Consistent (amounts ++ [a])) :
    (CommandKind.expectAmount.applyToTask a.command v).refusal = none := by
  obtain ⟨e, rfl, he⟩ := h
  obtain ⟨b, hb⟩ := Bounds.exists_holds hconsistent a.unit
  rw [applyToTask_command, (TaskDraft.expect_amount_iff he a _).mpr ⟨b, hb, rfl⟩]
  rfl

/-- Amounts for a section that expects nothing yet are all accepted if and only if they can stand together, and then
leave an entry for each unit that is named, with the one bound from each side that is given. Neither their order nor
a repetition matters. -/
theorem expectAll_iff (hw : w.task.expectations = {}) (amounts : List Amount) :
    ((w.expectAll amounts).refusal = none ↔ Consistent amounts) ∧
    ((w.expectAll amounts).refusal = none →
      ∃ e, (w.expectAll amounts).draft = w.withTask { w.task with expectations := e } ∧ e.Collects amounts) ∧
    ∀ others : List Amount, (∀ a, a ∈ others ↔ a ∈ amounts) →
      (w.expectAll others).accepted? = (w.expectAll amounts).accepted? := by
  have hempty : w.Expects w [] := ⟨{}, by rw [← hw]; rfl, Expectations.collects_nil⟩
  have hexpects (amounts : List Amount) (hok : (w.expectAll amounts).refusal = none) :
      w.Expects (w.expectAll amounts).draft amounts :=
    each_takes (fun _ _ _ _ hv hfirst => hv.apply hfirst) hempty hok
  have haccepts (amounts : List Amount) : (w.expectAll amounts).refusal = none ↔ Consistent amounts := by
    constructor
    · intro hok
      obtain ⟨e, -, he⟩ := hexpects amounts hok
      exact he.consistent
    · exact each_accepts (fun _ _ _ _ hv hfirst => hv.apply hfirst) (fun _ _ _ _ hv => hv.accepts)
        (fun _ _ hall => hall.mono (List.subset_append_left _ _)) hempty
  have hsame {first second : List Amount} (hmem : ∀ a, a ∈ first ↔ a ∈ second) {v : Workpiece}
      (hv : (w.expectAll first).accepted? = some v) : (w.expectAll second).accepted? = some v := by
    obtain ⟨hok, hdraft⟩ := accepted?_eq_some.mp hv
    have hok' : (w.expectAll second).refusal = none :=
      (haccepts second).mpr (((haccepts first).mp hok).mono fun a => (hmem a).mpr)
    obtain ⟨e, he, hcollects⟩ := hexpects first hok
    obtain ⟨f, hf, hcollects'⟩ := hexpects second hok'
    refine accepted?_eq_some.mpr ⟨hok', ?_⟩
    rw [← hdraft, he, hf, hcollects.eq hcollects' hmem]
  refine ⟨haccepts amounts, hexpects amounts, fun others hmem => ?_⟩
  exact Option.ext fun v => ⟨hsame hmem, hsame fun a => (hmem a).symm⟩

def essayPiece : Workpiece where
  task := { name := "essay", title := "Essay" }
  pipeline := { title := "T" }

def essayAmounts : List Amount :=
  [⟨.minimum, .words, 100⟩, ⟨.exactly, .paragraphs, 3⟩, ⟨.maximum, .words, 200⟩, ⟨.minimum, .paragraphs, 3⟩]

theorem expectAll_iff_essayAmounts :
    Consistent essayAmounts ∧
    (essayPiece.expectAll (essayAmounts.reverse ++ essayAmounts)).accepted? = some (essayPiece.withTask
      { essayPiece.task with
        expectations := { words := some ⟨some 100, some 200⟩, paragraphs := some ⟨some 3, some 3⟩ } }) := by
  obtain ⟨haccepts, -, hothers⟩ := expectAll_iff (w := essayPiece) rfl essayAmounts
  refine ⟨haccepts.mp (by decide), ?_⟩
  rw [hothers _ (by simp)]
  decide

end Workpiece

end BookCompiler
