import BookCompiler.Proofs.Compile.Closure
import BookCompiler.Proofs.Compile.Rounds
import Mathlib.Data.Fintype.Order
import Mathlib.Logic.Relation

namespace BookCompiler

theorem firstRepeated?_eq_none (seen names : List String) :
    firstRepeated? seen names = none ↔ names.Nodup ∧ ∀ name ∈ names, name ∉ seen := by
  induction names generalizing seen with
  | nil => simp [firstRepeated?]
  | cons name rest ih =>
      simp only [firstRepeated?, List.contains_iff_mem]
      split
      · rename_i hseen
        simp [hseen]
      · rename_i hnew
        rw [ih, List.nodup_cons]
        simp only [List.mem_cons, not_or, forall_eq_or_imp]
        constructor
        · rintro ⟨hnodup, hrest⟩
          exact ⟨⟨fun hin => (hrest name hin).1 rfl, hnodup⟩, hnew, fun x hx => (hrest x hx).2⟩
        · rintro ⟨⟨hin, hnodup⟩, -, hrest⟩
          exact ⟨hnodup, fun x hx => ⟨fun he => hin (he ▸ hx), hrest x hx⟩⟩

namespace Pipeline

/-- The result of the first task is among the dependencies of the second. -/
def Feeds (p : Pipeline) (t u : Task) : Prop :=
  t ∈ p.tasks ∧ u ∈ p.tasks ∧ ∃ name, t.result = some name ∧ name ∈ u.dependencies

/-- No task waits, directly or through others, for its own result. -/
def Acyclic (p : Pipeline) : Prop := ∀ t, ¬ Relation.TransGen p.Feeds t t

def SingleProducers (p : Pipeline) : Prop :=
  p.tasks.Pairwise fun t u => ∀ name, t.result = some name → u.result ≠ some name

/-- Where jokers are used there is something to check them against. -/
def JokersChecked (p : Pipeline) : Prop :=
  ∀ t ∈ p.tasks, t.jokers ≠ [] → (∃ unit, (t.expectations.get unit).isSome = true) ∨ t.format.isSome = true

/-- The inputs are exactly the parameters that no task produces. -/
def ImplicitRoles (p : Pipeline) : Prop :=
  ∀ q ∈ p.parameters, q.role = .input ↔ ∀ t ∈ p.tasks, t.result ≠ some q.name

variable {p : Pipeline}

theorem parameter?_isNone (name : String) :
    (p.parameter? name).isNone = true ↔ name ∉ p.parameters.map Parameter.name := by
  simp [parameter?]

theorem uniqueNames_ok (hparameters : (p.parameters.map Parameter.name).Nodup)
    (htasks : (p.tasks.map Task.name).Nodup) : p.uniqueNames = .ok () := by
  simp [uniqueNames, (firstRepeated?_eq_none [] _).mpr ⟨hparameters, by simp⟩,
    (firstRepeated?_eq_none [] _).mpr ⟨htasks, by simp⟩]

theorem declaredParameters_ok_iff : p.declaredParameters = .ok () ↔
    ∀ t ∈ p.tasks, ∀ name ∈ t.usedNames, name ∈ p.parameters.map Parameter.name := by
  have hnone : (p.tasks.findSome? fun t : Task =>
      (t.usedNames.find? fun name => (p.parameter? name).isNone).map fun name =>
        LogicFault.undefinedParameter name t.title) = none ↔
      ∀ t ∈ p.tasks, ∀ name ∈ t.usedNames, name ∈ p.parameters.map Parameter.name := by
    simp only [List.findSome?_eq_none_iff, Option.map_eq_none_iff, List.find?_eq_none, parameter?_isNone, not_not]
  rw [← hnone]
  simp only [declaredParameters]
  split <;> rename_i h <;> simp [h]

theorem producerFault?_eq_none (producers : List (String × String)) (tasks : List Task) :
    p.producerFault? producers tasks = none ↔ (tasks.filterMap Task.result).Nodup ∧
      ∀ name ∈ tasks.filterMap Task.result,
        producers.lookup name = none ∧ (p.parameter? name).any Parameter.isInput = false := by
  induction tasks generalizing producers with
  | nil => simp [producerFault?]
  | cons t tasks ih =>
      rw [producerFault?]
      cases hresult : t.result with
      | none => rw [List.filterMap_cons_none hresult, ih]
      | some name =>
          rw [List.filterMap_cons_some hresult, List.nodup_cons, List.forall_mem_cons]
          dsimp only
          cases hlookup : producers.lookup name with
          | some first => simp
          | none =>
              cases hinput : (p.parameter? name).any Parameter.isInput with
              | true => simp
              | false =>
                  have hnew (other : String) : ((name, t.title) :: producers).lookup other = none ↔
                      other ≠ name ∧ producers.lookup other = none := by
                    by_cases hother : other = name
                    · simp [hother]
                    · have hbeq : (other == name) = false := by simpa using hother
                      rw [List.lookup_cons, hbeq]
                      exact (and_iff_right hother).symm
                  simp only [Bool.false_eq_true, if_false, ih, hnew, true_and]
                  constructor
                  · rintro ⟨hnodup, hall⟩
                    exact ⟨⟨fun hmem => (hall name hmem).1.1 rfl, hnodup⟩, fun x hx => ⟨(hall x hx).1.2, (hall x hx).2⟩⟩
                  · rintro ⟨⟨hmem, hnodup⟩, hall⟩
                    exact ⟨hnodup, fun x hx => ⟨⟨fun he => hmem (he ▸ hx), (hall x hx).1⟩, (hall x hx).2⟩⟩

theorem singleProducers_ok_iff : p.singleProducers = .ok () ↔ (p.tasks.filterMap Task.result).Nodup ∧
    ∀ name ∈ p.tasks.filterMap Task.result, (p.parameter? name).any Parameter.isInput = false := by
  have hnone := p.producerFault?_eq_none [] p.tasks
  simp only [List.lookup_nil, true_and] at hnone
  rw [← hnone, singleProducers]
  split <;> rename_i h <;> simp [h]

theorem any_isInput_eq_false (hroles : p.ImplicitRoles) {t : Task} (ht : t ∈ p.tasks) {name : String}
    (hres : t.result = some name) : (p.parameter? name).any Parameter.isInput = false := by
  cases hq : p.parameter? name with
  | none => rfl
  | some q =>
      have hmem := List.mem_of_find?_eq_some hq
      have hname : q.name = name := by simpa using List.find?_some hq
      have hrole : q.role ≠ .input := fun hin => (hroles q hmem).mp hin t ht (hname ▸ hres)
      simpa [Parameter.isInput] using hrole

theorem producedTwice_of_producerFault? {producers : List (String × String)} {tasks : List Task} {fault : LogicFault}
    (hinput : ∀ t ∈ tasks, ∀ name, t.result = some name → (p.parameter? name).any Parameter.isInput = false)
    (h : p.producerFault? producers tasks = some fault) : ∃ name first second, fault = .producedTwice name first second := by
  induction tasks generalizing producers with
  | nil => cases h
  | cons t tasks ih =>
      obtain ⟨ht, hrest⟩ := List.forall_mem_cons.mp hinput
      rw [producerFault?] at h
      split at h
      · exact ih hrest h
      · rename_i name hresult
        split at h
        · rename_i first hlookup
          cases h
          exact ⟨name, first, t.title, rfl⟩
        · rw [ht name hresult] at h
          exact ih hrest h

theorem singleProducers_iff_nodup : p.SingleProducers ↔ (p.tasks.filterMap Task.result).Nodup := by
  rw [SingleProducers, List.Nodup, List.pairwise_filterMap]
  refine List.Pairwise.iff fun t u => ?_
  constructor
  · rintro h name hname other hother rfl
    exact h name hname hother
  · intro h name hname hother
    exact h name hname name hother rfl

theorem singleProducers_cases (hroles : p.ImplicitRoles) :
    (p.singleProducers = .ok () ∧ p.SingleProducers) ∨
      (∃ name first second, p.singleProducers = .error (.producedTwice name first second)) ∧
        ¬ p.SingleProducers := by
  have hinput : ∀ name ∈ p.tasks.filterMap Task.result, (p.parameter? name).any Parameter.isInput = false := by
    intro name hname
    obtain ⟨t, ht, hresult⟩ := List.mem_filterMap.mp hname
    exact any_isInput_eq_false hroles ht hresult
  have hok : p.singleProducers = .ok () ↔ p.SingleProducers := by
    rw [singleProducers_ok_iff, singleProducers_iff_nodup]
    exact and_iff_left hinput
  by_cases hsingle : p.SingleProducers
  · exact Or.inl ⟨hok.mpr hsingle, hsingle⟩
  · refine Or.inr ⟨?_, hsingle⟩
    cases hfault : p.producerFault? [] p.tasks with
    | none => exact absurd (hok.mp (by rw [singleProducers, hfault])) hsingle
    | some fault =>
        obtain ⟨name, first, second, rfl⟩ :=
          producedTwice_of_producerFault? (fun t ht name => any_isInput_eq_false hroles ht) hfault
        exact ⟨name, first, second, by rw [singleProducers, hfault]⟩

end Pipeline

def Expectations.Sound (e : Expectations) : Prop := ∀ unit b, e.get unit = some b → b.crossed = none

theorem Expectations.mem_toList (e : Expectations) (unit : ExpectUnit) (b : Bounds) :
    (unit, b) ∈ e.toList ↔ e.get unit = some b := by
  have hall : unit ∈ ExpectUnit.all := by cases unit <;> simp [ExpectUnit.all]
  simp only [toList, List.mem_filterMap, Option.map_eq_some_iff, Prod.mk.injEq]
  constructor
  · rintro ⟨_, -, _, hget, rfl, rfl⟩
    exact hget
  · intro hget
    exact ⟨unit, hall, b, hget, rfl, rfl⟩

theorem Expectations.isEmpty_eq_false (e : Expectations) :
    e.isEmpty = false ↔ ∃ unit, (e.get unit).isSome = true := by
  simp only [isEmpty, List.isEmpty_eq_false_iff, List.ne_nil_iff_exists_cons, Option.isSome_iff_exists]
  constructor
  · rintro ⟨⟨unit, b⟩, rest, he⟩
    exact ⟨unit, b, (e.mem_toList unit b).mp (he ▸ List.mem_cons_self ..)⟩
  · rintro ⟨unit, b, hget⟩
    obtain ⟨first, rest, he⟩ := List.exists_cons_of_ne_nil
      (List.ne_nil_of_mem ((e.mem_toList unit b).mpr hget))
    exact ⟨first, rest, he⟩

theorem Task.expectationFault?_eq {t : Task} (hsound : t.expectations.Sound) :
    t.expectationFault? =
      if !t.jokers.isEmpty && t.expectations.isEmpty && t.format.isNone then some (.uncheckedJoker t.title)
      else none := by
  simp only [expectationFault?]
  congr 1
  rw [List.findSome?_eq_none_iff]
  rintro ⟨unit, b⟩ hmem
  simp [hsound unit b ((t.expectations.mem_toList unit b).mp hmem)]

namespace Pipeline

variable {p : Pipeline}

theorem soundExpectations_cases (hsound : ∀ t ∈ p.tasks, t.expectations.Sound) :
    (p.soundExpectations = .ok () ∧ p.JokersChecked) ∨
      (∃ title, p.soundExpectations = .error (.uncheckedJoker title)) ∧ ¬ p.JokersChecked := by
  have hchecked (t : Task) (ht : t ∈ p.tasks) : t.expectationFault? = none ↔
      (t.jokers ≠ [] → (∃ unit, (t.expectations.get unit).isSome = true) ∨ t.format.isSome = true) := by
    rw [Task.expectationFault?_eq (hsound t ht), ← Expectations.isEmpty_eq_false]
    cases t.jokers <;> cases t.expectations.isEmpty <;> cases t.format <;> simp
  cases hfault : p.tasks.findSome? Task.expectationFault? with
  | none =>
      refine Or.inl ⟨by simp [soundExpectations, hfault], fun t ht => (hchecked t ht).mp ?_⟩
      exact List.findSome?_eq_none_iff.mp hfault t ht
  | some fault =>
      obtain ⟨t, ht, hsome⟩ := List.exists_of_findSome?_eq_some hfault
      refine Or.inr ⟨⟨t.title, ?_⟩, fun hall => ?_⟩
      · rw [Task.expectationFault?_eq (hsound t ht)] at hsome
        split at hsome
        · rw [Option.some.injEq] at hsome
          simp [soundExpectations, hfault, hsome]
        · cases hsome
      · rw [(hchecked t ht).mpr (hall t ht)] at hsome
        cases hsome

/-- Where every dependency is an input or a result, tasks that all wait for one another run in a
circle. -/
theorem resolution_of_acyclic {limits : Script.Limits} (hclosed : p.Closed limits) (hroles : p.ImplicitRoles)
    (hacyclic : p.Acyclic) : p.resolution.2 = [] := by
  by_contra hne
  let Member := { t : Task // t ∈ p.tasks }
  have hfinite : Finite Member := List.finite_toSet p.tasks
  let before : Member → Member → Prop := fun t u => Relation.TransGen p.Feeds t.1 u.1
  have htrans : IsTrans Member before := ⟨fun _ _ _ => Relation.TransGen.trans⟩
  have hirrefl : Std.Irrefl before := ⟨fun t => hacyclic t.1⟩
  have hwf : WellFounded before := Finite.wellFounded_of_trans_of_irrefl before
  obtain ⟨hwaiting, hmem, -⟩ := p.resolution_settles
  obtain ⟨t, ht⟩ := List.exists_mem_of_ne_nil _ hne
  have hin (u : Task) : u ∈ p.resolution.2 ↔ u ∈ p.tasks ∧ u.isReady p.resolution.1 = false := by
    rw [hwaiting, List.mem_filter, Bool.not_eq_true']
  obtain ⟨⟨first, hfirst⟩, hstuck, hmin⟩ := hwf.has_min { u : Member | u.1.isReady p.resolution.1 = false }
    ⟨⟨t, ((hin t).mp ht).1⟩, ((hin t).mp ht).2⟩
  have hnot : ¬ ∀ name ∈ first.dependencies, name ∈ p.resolution.1 ∨ isReserved name = true := by
    rw [← Task.isReady_iff]
    simpa using hstuck
  push Not at hnot
  obtain ⟨name, hname, hunknown, -⟩ := hnot
  have hused : name ∈ first.usedNames := List.mem_append_left _ hname
  obtain ⟨q, hq, rfl⟩ := List.mem_map.mp (hclosed.used_declared first hfirst name hused)
  have hnotInput : q.role ≠ .input := by
    intro hrole
    refine hunknown ((hmem q.name).mpr (Or.inl ?_))
    exact List.mem_map_of_mem (List.mem_filter.mpr ⟨hq, by simp [hrole]⟩)
  rw [ne_eq, hroles q hq] at hnotInput
  push Not at hnotInput
  obtain ⟨u, hu, hres⟩ := hnotInput
  refine hmin ⟨u, hu⟩ ?_ (Relation.TransGen.single ⟨hu, hfirst, q.name, hres, hname⟩)
  by_contra hready
  exact hunknown ((hmem q.name).mpr (Or.inr ⟨u, hu, by simpa using hready, hres⟩))

theorem SingleProducers.eq (hsingle : p.SingleProducers) {t u : Task} (ht : t ∈ p.tasks) (hu : u ∈ p.tasks)
    {name : String} (htres : t.result = some name) (hures : u.result = some name) : t = u := by
  by_contra hne
  have hsymm : Std.Symm fun t u : Task => ∀ name, t.result = some name → u.result ≠ some name :=
    ⟨fun t u h name hu ht => h name ht hu⟩
  exact List.Pairwise.forall hsingle ht hu hne name htres hures

theorem idxOf_lt_of_feeds {limits : Script.Limits} (hclosed : p.Closed limits) (hroles : p.ImplicitRoles)
    (hsingle : p.SingleProducers) {order : List Task} (hperm : order.Perm p.tasks) (hcan : p.CanRun order)
    {t u : Task} (h : p.Feeds t u) : order.idxOf t < order.idxOf u := by
  obtain ⟨ht, hu, name, hres, hdep⟩ := h
  have hnodup : order.Nodup := hperm.nodup_iff.mpr hclosed.tasks_distinct.of_map
  obtain ⟨before, after, rfl⟩ := List.append_of_mem (hperm.mem_iff.mpr hu)
  have hin : t ∈ before := by
    rcases hcan before u after rfl name hdep with hreserved | hinput | ⟨v, hv, hvres⟩
    · have hfree := hclosed.used_free u hu name (List.mem_append_left _ hdep)
      rw [hfree] at hreserved
      cases hreserved
    · obtain ⟨q, hq, rfl⟩ := List.mem_map.mp hinput
      obtain ⟨hq, hrole⟩ := List.mem_filter.mp hq
      exact absurd hres ((hroles q hq).mp (by simpa using hrole) t ht)
    · have hvin : v ∈ p.tasks := hperm.mem_iff.mp (List.mem_append_left _ hv)
      rw [hsingle.eq ht hvin hres hvres]
      exact hv
  have hnew : u ∉ before := fun hmem =>
    (List.nodup_append.mp hnodup).2.2 u hmem u (List.mem_cons_self ..) rfl
  rw [List.idxOf_append_of_mem hin, List.idxOf_append_of_notMem hnew]
  have hlt := List.idxOf_lt_length_of_mem hin
  omega

theorem acyclic_of_order {limits : Script.Limits} (hclosed : p.Closed limits) (hroles : p.ImplicitRoles)
    (hsingle : p.SingleProducers) {order : List Task} (hperm : order.Perm p.tasks) (hcan : p.CanRun order) :
    p.Acyclic := by
  have hlt (t u : Task) (h : Relation.TransGen p.Feeds t u) : order.idxOf t < order.idxOf u := by
    induction h with
    | single h => exact idxOf_lt_of_feeds hclosed hroles hsingle hperm hcan h
    | tail _ h ih => exact ih.trans (idxOf_lt_of_feeds hclosed hroles hsingle hperm hcan h)
  exact fun t h => absurd (hlt t t h) (lt_irrefl _)

theorem resolvable_ok_iff (p : Pipeline) : p.resolvable = .ok () ↔ p.resolution.2 = [] := by
  by_cases hnil : p.resolution.2 = [] <;> simp [resolvable, hnil]

theorem resolvable_cases (p : Pipeline) :
    p.resolvable = .ok () ∨ ∃ waiting, p.resolvable = .error (.unresolvable waiting) := by
  simp only [resolvable]
  split
  · exact Or.inl rfl
  · exact Or.inr ⟨_, rfl⟩

theorem resolvable_iff_acyclic {limits : Script.Limits} (hclosed : p.Closed limits) (hroles : p.ImplicitRoles)
    (hsingle : p.SingleProducers) : p.resolvable = .ok () ↔ p.Acyclic := by
  rw [resolvable_ok_iff]
  constructor
  · intro hnil
    obtain ⟨order, hperm, hcan⟩ := p.exists_order_iff.mpr hnil
    exact acyclic_of_order hclosed hroles hsingle hperm hcan
  · exact resolution_of_acyclic hclosed hroles

/-- The checks of a closed pipeline with implicit roles come down to three: single producers, checked
jokers and no circle. The first that fails gives the fault. -/
theorem validate_cases {limits : Script.Limits} (hclosed : p.Closed limits) (hroles : p.ImplicitRoles)
    (hsound : ∀ t ∈ p.tasks, t.expectations.Sound) :
    (p.validate = .ok () ∧ p.SingleProducers ∧ p.JokersChecked ∧ p.Acyclic) ∨
      (∃ name first second, p.validate = .error (.producedTwice name first second)) ∧ ¬ p.SingleProducers ∨
      (∃ title, p.validate = .error (.uncheckedJoker title)) ∧ ¬ p.JokersChecked ∨
      (∃ waiting, p.validate = .error (.unresolvable waiting)) ∧ ¬ p.Acyclic := by
  have hvalidate : p.validate = (do p.singleProducers; p.soundExpectations; p.resolvable) := by
    rw [validate, uniqueNames_ok hclosed.parameters_distinct hclosed.tasks_distinct,
      declaredParameters_ok_iff.mpr hclosed.used_declared]
    rfl
  rw [hvalidate]
  rcases singleProducers_cases hroles with ⟨hproducers, hsingle⟩ | ⟨⟨name, first, second, hfault⟩, hsingle⟩
  · rcases soundExpectations_cases hsound with ⟨hexpect, hjokers⟩ | ⟨⟨title, hfault⟩, hjokers⟩
    · rw [hproducers, hexpect]
      have hiff := resolvable_iff_acyclic hclosed hroles hsingle
      by_cases hacyclic : p.Acyclic
      · exact Or.inl ⟨hiff.mpr hacyclic, hsingle, hjokers, hacyclic⟩
      · have hfault := p.resolvable_cases.resolve_left fun hok => hacyclic (hiff.mp hok)
        exact Or.inr (Or.inr (Or.inr ⟨hfault, hacyclic⟩))
    · rw [hproducers, hfault]
      exact Or.inr (Or.inr (Or.inl ⟨⟨title, rfl⟩, hjokers⟩))
  · rw [hfault]
    exact Or.inr (Or.inl ⟨⟨name, first, second, rfl⟩, hsingle⟩)

section Perm

variable {q : Pipeline}

theorem nodup_of_uniqueNames (h : p.uniqueNames = .ok ()) :
    (p.parameters.map Parameter.name).Nodup ∧ (p.tasks.map Task.name).Nodup := by
  simp only [uniqueNames] at h
  split at h
  · cases h
  · rename_i hparameters
    split at h
    · cases h
    · rename_i htasks
      exact ⟨((firstRepeated?_eq_none _ _).mp hparameters).1, ((firstRepeated?_eq_none _ _).mp htasks).1⟩

theorem parameter?_perm (hnodup : (p.parameters.map Parameter.name).Nodup) (hperm : q.parameters.Perm p.parameters)
    (name : String) : q.parameter? name = p.parameter? name := by
  have hfind {l : List Parameter} (hl : (l.map Parameter.name).Nodup) {x : Parameter} (hx : x ∈ l)
      (hname : x.name = name) : l.find? (fun y => y.name == name) = some x := by
    rw [List.find?_eq_some_iff_append]
    obtain ⟨before, after, rfl⟩ := List.append_of_mem hx
    refine ⟨by simpa using hname, before, after, rfl, fun y hy => ?_⟩
    rw [List.map_append, List.map_cons, List.nodup_append] at hl
    have hne := hl.2.2 y.name (List.mem_map_of_mem hy) x.name List.mem_cons_self
    simpa [← hname] using hne
  cases hp : p.parameter? name with
  | none =>
      rw [parameter?, List.find?_eq_none] at hp ⊢
      exact fun x hx => hp x (hperm.mem_iff.mp hx)
  | some x =>
      have hname : x.name = name := by simpa using List.find?_some hp
      have hnodup' := (hperm.map Parameter.name).nodup_iff.mpr hnodup
      exact hfind hnodup' (hperm.mem_iff.mpr (List.mem_of_find?_eq_some hp)) hname

theorem soundExpectations_ok_iff :
    p.soundExpectations = .ok () ↔ ∀ t ∈ p.tasks, t.expectationFault? = none := by
  rw [← List.findSome?_eq_none_iff, soundExpectations]
  split <;> rename_i h <;> simp [h]

theorem resolvable_perm (htasks : q.tasks.Perm p.tasks) (hperm : q.parameters.Perm p.parameters)
    (h : p.resolvable = .ok ()) : q.resolvable = .ok () := by
  rw [resolvable_ok_iff, ← exists_order_iff] at h ⊢
  obtain ⟨order, horder, hcan⟩ := h
  refine ⟨order, horder.trans htasks.symm, hcan.mono fun name hname => ?_⟩
  exact ((hperm.filter _).map Parameter.name).mem_iff.mpr hname

theorem validate_perm (htasks : q.tasks.Perm p.tasks) (hperm : q.parameters.Perm p.parameters)
    (h : p.validate = .ok ()) : q.validate = .ok () := by
  have hbind {x : Except LogicFault Unit} {y : Except LogicFault Unit} (hxy : (do x; y) = .ok ()) :
      x = .ok () ∧ y = .ok () := by
    cases x with
    | error e => cases hxy
    | ok u => exact ⟨rfl, hxy⟩
  obtain ⟨hunique, h⟩ := hbind h
  obtain ⟨hdeclared, h⟩ := hbind h
  obtain ⟨hproducers, h⟩ := hbind h
  obtain ⟨hexpectations, hresolvable⟩ := hbind h
  obtain ⟨hnodup, hnames⟩ := nodup_of_uniqueNames hunique
  have hparameters := hperm.map Parameter.name
  have hresults := htasks.filterMap Task.result
  have hunique' : q.uniqueNames = .ok () :=
    uniqueNames_ok (hparameters.nodup_iff.mpr hnodup) ((htasks.map Task.name).nodup_iff.mpr hnames)
  have hdeclared' : q.declaredParameters = .ok () := by
    rw [declaredParameters_ok_iff] at hdeclared ⊢
    exact fun t ht name hname => hparameters.mem_iff.mpr (hdeclared t (htasks.mem_iff.mp ht) name hname)
  have hproducers' : q.singleProducers = .ok () := by
    rw [singleProducers_ok_iff] at hproducers ⊢
    refine ⟨hresults.nodup_iff.mpr hproducers.1, fun name hname => ?_⟩
    rw [parameter?_perm hnodup hperm]
    exact hproducers.2 name (hresults.mem_iff.mp hname)
  have hexpectations' : q.soundExpectations = .ok () := by
    rw [soundExpectations_ok_iff] at hexpectations ⊢
    exact fun t ht => hexpectations t (htasks.mem_iff.mp ht)
  rw [validate, hunique', hdeclared', hproducers', hexpectations', resolvable_perm htasks hperm hresolvable]
  rfl

end Perm

end Pipeline

end BookCompiler
