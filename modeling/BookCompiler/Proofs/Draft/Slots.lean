import BookCompiler.Proofs.Compile.Run
import BookCompiler.Proofs.Draft.Parameters
import Mathlib.Data.List.Perm.Basic
import Mathlib.Logic.Function.Basic

namespace BookCompiler

theorem map_foldlM_option {α β γ : Type} {f : α → β → Option α} {g : α → γ} {h : γ → β → Option γ} {bs : List β}
    (step : ∀ b ∈ bs, ∀ a, (f a b).map g = h (g a) b) (a : α) : (bs.foldlM f a).map g = bs.foldlM h (g a) := by
  induction bs generalizing a with
  | nil => rfl
  | cons b bs ih =>
      obtain ⟨hb, hbs⟩ := List.forall_mem_cons.mp step
      rw [List.foldlM_cons, List.foldlM_cons, ← hb a]
      cases f a b with
      | none => rfl
      | some a' => exact ih hbs a'

/-- What two declarations say of the same thing, unless they disagree. -/
def agree {α : Type} [DecidableEq α] (first second : Option α) : Option (Option α) :=
  match first, second with
  | some a, some b => if a = b then some (some a) else none
  | some a, none => some (some a)
  | none, b => some b

section Agree

variable {α : Type} [DecidableEq α]

@[simp] theorem agree_none_left (b : Option α) : agree none b = some b := rfl

@[simp] theorem agree_none_right (a : Option α) : agree a none = some a := by
  cases a <;> rfl

@[simp] theorem agree_self (a : α) : agree (some a) (some a) = some (some a) := if_pos rfl

theorem agree_of_ne {a b : α} (h : a ≠ b) : agree (some a) (some b) = none := if_neg h

theorem agree_eq_some_iff (first second merged : Option α) :
    agree first second = some merged ↔ ∀ a, merged = some a ↔ first = some a ∨ second = some a := by
  cases first with
  | none =>
      rw [agree_none_left, Option.some.injEq, eq_comm, Option.ext_iff]
      simp
  | some a =>
      cases second with
      | none =>
          rw [agree_none_right, Option.some.injEq, eq_comm, Option.ext_iff]
          simp
      | some b =>
          by_cases hab : a = b
          · rw [hab, agree_self, Option.some.injEq, eq_comm, Option.ext_iff]
            simp
          · rw [agree_of_ne hab]
            refine iff_of_false nofun fun h => hab ?_
            have ha := (h a).mpr (Or.inl rfl)
            have hb := (h b).mpr (Or.inr rfl)
            exact Option.some.inj (ha.symm.trans hb)

theorem agree_comm (a b : Option α) : agree a b = agree b a :=
  Option.ext fun merged => by simp only [agree_eq_some_iff, or_comm]

theorem agree_right_comm (x a b : Option α) :
    (agree x a).bind (agree · b) = (agree x b).bind (agree · a) := by
  cases x with
  | none => simpa using agree_comm a b
  | some x =>
      cases a with
      | none => simp
      | some a =>
          cases b with
          | none => simp
          | some b =>
              by_cases ha : x = a
              · subst ha
                by_cases hb : x = b
                · simp [hb]
                · simp [agree_of_ne hb]
              · by_cases hb : x = b
                · subst hb
                  simp [agree_of_ne ha]
                · simp [agree_of_ne ha, agree_of_ne hb]

theorem agree_eq_none_iff (first second : Option α) :
    agree first second = none ↔ ∃ a b, first = some a ∧ second = some b ∧ a ≠ b := by
  cases first with
  | none => simp
  | some a =>
      cases second with
      | none => simp
      | some b => simp [agree]

end Agree

def Says {α β κ : Type} (items : List β) (key : β → κ) (field : β → Option α) (k : κ) (a : α) : Prop :=
  ∃ x ∈ items, key x = k ∧ field x = some a

/-- The slot holds what is said, and is empty where nothing is. No two different things are said then. -/
def Gathers {α : Type} (slot : Option α) (said : α → Prop) : Prop := ∀ a, slot = some a ↔ said a

section Gathers

variable {α β κ : Type} {slot other : Option α} {said : α → Prop}

theorem Gathers.unique (h : Gathers slot said) {a b : α} (ha : said a) (hb : said b) : a = b :=
  Option.some.inj (((h a).mpr ha).symm.trans ((h b).mpr hb))

theorem Gathers.eq (h : Gathers slot said) (h' : Gathers other said) : slot = other :=
  Option.ext fun a => (h a).trans (h' a).symm

theorem exists_gathers (h : ∀ a b, said a → said b → a = b) : ∃ slot, Gathers slot said := by
  by_cases hsaid : ∃ a, said a
  · obtain ⟨a, ha⟩ := hsaid
    refine ⟨some a, fun b => ⟨?_, fun hb => congrArg some (h a b ha hb)⟩⟩
    rintro ⟨⟩
    exact ha
  · exact ⟨none, fun b => ⟨nofun, fun hb => absurd ⟨b, hb⟩ hsaid⟩⟩

theorem Gathers.agree_iff [DecidableEq α] (h : Gathers slot said) (new merged : Option α) :
    agree slot new = some merged ↔ Gathers merged fun a => said a ∨ new = some a := by
  rw [agree_eq_some_iff]
  exact forall_congr' fun a => by rw [h a]

variable {items others : List β} {key : β → κ} {field : β → Option α} {k : κ} {x : β}

theorem says_append_singleton {a : α} :
    Says (items ++ [x]) key field k a ↔ Says items key field k a ∨ key x = k ∧ field x = some a := by
  simp [Says, or_and_right, exists_or]

theorem Says.mono {a : α} (h : Says items key field k a) (hsub : items ⊆ others) : Says others key field k a := by
  obtain ⟨x, hx, hsaid⟩ := h
  exact ⟨x, hsub hx, hsaid⟩

theorem says_congr (hsame : ∀ x, x ∈ items ↔ x ∈ others) : Says items key field k = Says others key field k := by
  funext a
  exact propext ⟨fun h => h.mono fun x hx => (hsame x).mp hx, fun h => h.mono fun x hx => (hsame x).mpr hx⟩

theorem Gathers.agree_says_iff [DecidableEq α] (h : Gathers slot (Says items key field k)) (hk : key x = k)
    (merged : Option α) : agree slot (field x) = some merged ↔ Gathers merged (Says (items ++ [x]) key field k) := by
  rw [h.agree_iff]
  simp only [Gathers, says_append_singleton, hk, true_and]

theorem Gathers.says_of_ne (h : Gathers slot (Says items key field k)) (hk : key x ≠ k) :
    Gathers slot (Says (items ++ [x]) key field k) := by
  intro a
  rw [h a, says_append_singleton]
  simp [hk]

end Gathers

namespace ParameterDraft

theorem toOption_mergeDescription (first second : Option String) :
    (mergeDescription first second).toOption = agree first second := by
  cases first with
  | none => rfl
  | some a =>
      cases second with
      | none => rfl
      | some b =>
          rw [mergeDescription, agree]
          split <;> rfl

theorem agree_of_mergeDescription {first second merged : Option String}
    (h : mergeDescription first second = .ok merged) : agree first second = some merged := by
  rw [← toOption_mergeDescription, h]
  rfl

theorem mergeRole_eq_agree (first second : Option Role) : mergeRole first second = agree first second := by
  cases first <;> cases second <;> rfl

theorem accepted?_merge (p q : ParameterDraft) : (p.merge q).accepted? =
    (agree p.description q.description).bind fun description =>
      (agree p.role q.role).map fun role => { p with description, role, examples := p.examples ++ q.examples } := by
  rw [← toOption_mergeDescription, ← mergeRole_eq_agree, merge]
  cases mergeDescription p.description q.description with
  | error e => rfl
  | ok description => cases mergeRole p.role q.role <;> rfl

theorem accepted?_merge_merge (p a b : ParameterDraft) :
    ((p.merge a).accepted?.bind fun q => (q.merge b).accepted?) =
      ((agree p.description a.description).bind (agree · b.description)).bind fun description =>
        ((agree p.role a.role).bind (agree · b.role)).map fun role =>
          { p with description, role, examples := p.examples ++ a.examples ++ b.examples } := by
  simp only [accepted?_merge]
  cases agree p.description a.description with
  | none => rfl
  | some description => cases agree p.role a.role <;> simp

theorem merge_right_comm (p : ParameterDraft) {a b : ParameterDraft} (ha : a.examples = []) (hb : b.examples = []) :
    ((p.merge a).accepted?.bind fun q => (q.merge b).accepted?) =
      (p.merge b).accepted?.bind fun q => (q.merge a).accepted? := by
  rw [accepted?_merge_merge, accepted?_merge_merge, agree_right_comm p.description, agree_right_comm p.role, ha, hb]

end ParameterDraft

/-- The declarations of the parameters by their names. The order in which they came is lost. -/
abbrev Slots : Type := String → Option ParameterDraft

def Declaration.draft? (x : Declaration) : Option ParameterDraft :=
  if isReserved x.name then none
  else x.role.toOption.map fun role => { name := x.name, description := x.description, role }

theorem Declaration.draft?_eq_some {x : Declaration} {q : ParameterDraft} (h : x.draft? = some q) :
    q.name = x.name ∧ q.examples = [] := by
  rw [draft?] at h
  split at h
  · cases h
  · obtain ⟨role, -, rfl⟩ := Option.map_eq_some_iff.mp h
    exact ⟨rfl, rfl⟩

namespace Slots

def known (slots : Slots) (name : String) : ParameterDraft := (slots name).getD { name }

def declare (slots : Slots) (x : Declaration) : Option Slots :=
  x.draft?.bind fun q => ((slots.known x.name).merge q).accepted?.map fun p =>
    Function.update slots x.name (some p)

theorem known_update_self (slots : Slots) (name : String) (p : ParameterDraft) :
    known (Function.update slots name (some p)) name = p := by
  simp [known]

theorem known_update_of_ne (slots : Slots) {name other : String} (h : other ≠ name) (p : Option ParameterDraft) :
    known (Function.update slots name p) other = slots.known other := by
  simp [known, Function.update_of_ne h]

/-- Two declarations can come in either order. -/
theorem declare_comm (slots : Slots) (x y : Declaration) :
    (slots.declare x).bind (declare · y) = (slots.declare y).bind (declare · x) := by
  cases hx : x.draft? with
  | none => simp [declare, hx]
  | some a =>
      cases hy : y.draft? with
      | none => simp [declare, hy]
      | some b =>
          simp only [declare, hx, hy, Option.bind_some, Option.bind_map, Function.comp_def]
          by_cases hname : x.name = y.name
          · have hmerge := (slots.known y.name).merge_right_comm (x.draft?_eq_some hx).2 (y.draft?_eq_some hy).2
            simp only [hname, known_update_self, Function.update_idem]
            simpa only [Option.map_bind, Function.comp_def] using
              congrArg (Option.map fun p => Function.update slots y.name (some p)) hmerge
          · simp only [known_update_of_ne slots hname, known_update_of_ne slots (Ne.symm hname)]
            cases ((slots.known x.name).merge a).accepted? with
            | none => simp
            | some p =>
                cases ((slots.known y.name).merge b).accepted? with
                | none => rfl
                | some q => exact congrArg some (Function.update_comm hname _ _ _)

def declareAll (slots : Slots) (xs : List Declaration) : Option Slots := xs.foldlM declare slots

theorem declareAll_append (slots : Slots) (xs ys : List Declaration) :
    slots.declareAll (xs ++ ys) = (slots.declareAll xs).bind (declareAll · ys) :=
  List.foldlM_append

theorem declareAll_cons (slots : Slots) (x : Declaration) (xs : List Declaration) :
    slots.declareAll (x :: xs) = (slots.declare x).bind (declareAll · xs) :=
  List.foldlM_cons

theorem declareAll_perm (slots : Slots) {xs ys : List Declaration} (h : xs.Perm ys) :
    slots.declareAll xs = slots.declareAll ys := by
  induction h generalizing slots with
  | nil => rfl
  | cons x _ ih => simp only [declareAll_cons, ih]
  | swap x y xs => simp only [declareAll_cons, ← Option.bind_assoc, declare_comm slots y x]
  | trans _ _ ih ih' => exact (ih slots).trans (ih' slots)

end Slots

theorem find?_replaceFirst {ps : List ParameterDraft} {q : ParameterDraft}
    (h : q.name ∈ ps.map ParameterDraft.name) (name : String) :
    (replaceFirst (fun p => p.name == q.name) q ps).find? (fun p => p.name == name) =
      if name = q.name then some q else ps.find? fun p => p.name == name := by
  induction ps with
  | nil => cases h
  | cons p ps ih =>
      rw [replaceFirst]
      by_cases hp : p.name = q.name
      · by_cases hname : name = q.name
        · simp [hp, hname]
        · simp [hp, hname, Ne.symm hname]
      · have hrest : q.name ∈ ps.map ParameterDraft.name := (List.mem_cons.mp h).resolve_left (Ne.symm hp)
        by_cases hfirst : p.name = name
        · have hname : name ≠ q.name := fun he => hp (hfirst.trans he)
          simp [hname, hfirst]
        · simp [hp, hfirst, ih hrest]

namespace PipelineDraft

theorem parameter?_setParameter {d : PipelineDraft} {q : ParameterDraft} (h : q.name ∈ d.names) :
    (d.setParameter q).parameter? = Function.update d.parameter? q.name (some q) := by
  funext name
  rw [Function.update_apply]
  exact find?_replaceFirst h name

theorem parameter?_append {d : PipelineDraft} {q : ParameterDraft} (h : d.parameter? q.name = none) :
    ({ d with parameters := d.parameters ++ [q] } : PipelineDraft).parameter? =
      Function.update d.parameter? q.name (some q) := by
  funext name
  rw [parameter?, List.find?_append, ← parameter?, Function.update_apply]
  by_cases hname : name = q.name
  · rw [hname, h]
    simp
  · simp [hname, Ne.symm hname]

theorem merge_blank_left (q : ParameterDraft) : (ParameterDraft.merge { name := q.name } q).accepted? = some q := by
  rw [ParameterDraft.accepted?_merge]
  rfl

theorem accepted?_defineParameter (d : PipelineDraft) {q : ParameterDraft} (hfree : isReserved q.name = false) :
    (d.defineParameter q).accepted?.map parameter? =
      ((Slots.known d.parameter? q.name).merge q).accepted?.map fun p =>
        Function.update d.parameter? q.name (some p) := by
  rw [defineParameter, hfree, Slots.known]
  cases hfind : d.parameter? q.name with
  | none =>
      rw [Option.getD_none, merge_blank_left]
      exact congrArg some (parameter?_append hfind)
  | some p =>
      obtain ⟨hmem, hname⟩ := parameter?_eq_some hfind
      simp only [Bool.false_eq_true, if_false, Option.getD_some, Attempt.accepted?_map, Option.map_map]
      cases hmerge : (p.merge q).accepted? with
      | none => rfl
      | some r =>
          have hr : r.name = q.name := by
            rw [← (Attempt.accepted?_eq_some.mp hmerge).2, ParameterDraft.merge_name, hname]
          refine congrArg some ?_
          rw [← hr, Function.comp_apply, parameter?_setParameter]
          rw [hr, ← hname]
          exact List.mem_map_of_mem hmem

theorem accepted?_declare (d : PipelineDraft) (x : Declaration) :
    (d.declare x).accepted?.map parameter? = Slots.declare d.parameter? x := by
  rw [declare, Slots.declare, Declaration.draft?]
  cases hrole : x.role with
  | error e => cases isReserved x.name <;> rfl
  | ok role =>
      dsimp only
      rw [Attempt.accepted?_mapRefusal]
      cases hfree : isReserved x.name with
      | true => rw [defineParameter, hfree]; rfl
      | false => exact d.accepted?_defineParameter hfree

end PipelineDraft

end BookCompiler
