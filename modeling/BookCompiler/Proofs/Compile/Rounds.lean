import BookCompiler.Compile.Logic
import Mathlib.Data.List.Perm.Subperm
import Mathlib.Data.List.Perm.Basic

namespace BookCompiler

/-- Tasks can run one after the other in an order if each of their dependencies is reserved, known
from the beginning, or the result of an earlier task. -/
def Runs (known : List String) (order : List Task) : Prop :=
  ∀ before t after, order = before ++ t :: after → ∀ name ∈ t.dependencies,
    isReserved name = true ∨ name ∈ known ∨ ∃ u ∈ before, u.result = some name

namespace Task

theorem isReady_iff (known : List String) (t : Task) :
    t.isReady known = true ↔ ∀ name ∈ t.dependencies, name ∈ known ∨ isReserved name = true := by
  simp [isReady, List.all_eq_true]

theorem isReady_mono {known more : List String} (h : known ⊆ more) {t : Task} (ht : t.isReady known = true) :
    t.isReady more = true := by
  rw [isReady_iff] at ht ⊢
  exact fun name hname => (ht name hname).imp_left (@h name)

end Task

theorem runs_nil (known : List String) : Runs known [] := by
  intro before t after h
  simp at h

theorem runs_cons (known : List String) (t : Task) (order : List Task) :
    Runs known (t :: order) ↔ t.isReady known = true ∧ Runs (known ++ t.result.toList) order := by
  constructor
  · intro h
    constructor
    · rw [Task.isReady_iff]
      intro name hname
      rcases h [] t order rfl name hname with hr | hk | ⟨u, hu, -⟩
      · exact Or.inr hr
      · exact Or.inl hk
      · cases hu
    · intro before u after he name hname
      rcases h (t :: before) u after (by rw [he, List.cons_append]) name hname with hr | hk | ⟨v, hv, hres⟩
      · exact Or.inl hr
      · exact Or.inr (Or.inl (List.mem_append_left _ hk))
      · rcases List.mem_cons.mp hv with rfl | hv
        · exact Or.inr (Or.inl (List.mem_append_right _ (by simp [hres])))
        · exact Or.inr (Or.inr ⟨v, hv, hres⟩)
  · rintro ⟨hready, hrest⟩ before u after he name hname
    cases before with
    | nil =>
        simp only [List.nil_append, List.cons.injEq] at he
        rw [← he.1] at hname
        exact ((Task.isReady_iff known t).mp hready name hname).elim (fun hk => Or.inr (Or.inl hk)) Or.inl
    | cons v before =>
        simp only [List.cons_append, List.cons.injEq] at he
        obtain ⟨rfl, he⟩ := he
        rcases hrest before u after he name hname with hr | hk | ⟨x, hx, hres⟩
        · exact Or.inl hr
        · rcases List.mem_append.mp hk with hk | hk
          · exact Or.inr (Or.inl hk)
          · exact Or.inr (Or.inr ⟨t, List.mem_cons_self .., by simpa using hk⟩)
        · exact Or.inr (Or.inr ⟨x, List.mem_cons_of_mem _ hx, hres⟩)

theorem Runs.mono {known more : List String} {order : List Task} (h : Runs known order) (hk : known ⊆ more) :
    Runs more order :=
  fun before t after he name hname => (h before t after he name hname).imp_right (Or.imp_left (@hk name))

theorem runs_append_of_ready {known : List String} {ready order : List Task}
    (hready : ∀ t ∈ ready, t.isReady known = true) (h : Runs (known ++ ready.filterMap Task.result) order) :
    Runs known (ready ++ order) := by
  induction ready generalizing known with
  | nil => simpa using h
  | cons t rest ih =>
      rw [List.cons_append, runs_cons]
      refine ⟨hready t (List.mem_cons_self ..), ih ?_ ?_⟩
      · intro u hu
        exact Task.isReady_mono (List.subset_append_left _ _) (hready u (List.mem_cons_of_mem t hu))
      · refine h.mono ?_
        cases hres : t.result <;> simp [hres]

theorem Runs.ready {known final : List String} {order : List Task} (h : Runs known order) (hk : known ⊆ final)
    (hclosed : ∀ t ∈ order, t.isReady final = true → ∀ name, t.result = some name → name ∈ final) :
    ∀ t ∈ order, t.isReady final = true := by
  induction order generalizing known with
  | nil => intro t ht; cases ht
  | cons u rest ih =>
      obtain ⟨hu, hrest⟩ := (runs_cons known u rest).mp h
      have huf := Task.isReady_mono hk hu
      intro t ht
      rcases List.mem_cons.mp ht with rfl | ht
      · exact huf
      · refine ih hrest ?_ (fun v hv => hclosed v (List.mem_cons_of_mem u hv)) t ht
        intro name hname
        rcases List.mem_append.mp hname with hname | hname
        · exact hk hname
        · exact hclosed u (List.mem_cons_self ..) huf name (by simpa using hname)

/-- What running in rounds comes to: the tasks that are not ready at the end are those that wait, what
is known at the end was known before or is the result of a task that is ready, and the ready ones
can run in some order. -/
structure Settles (known : List String) (tasks : List Task) (final : List String) (waiting : List Task) :
    Prop where
  waiting_eq : waiting = tasks.filter (!Task.isReady final ·)
  mem_final : ∀ name, name ∈ final ↔
    name ∈ known ∨ ∃ t ∈ tasks, t.isReady final = true ∧ t.result = some name
  order : ∃ order, order.Perm (tasks.filter (Task.isReady final)) ∧ Runs known order

theorem settles_of_none_ready {known : List String} {tasks : List Task}
    (h : ∀ t ∈ tasks, t.isReady known = false) : Settles known tasks known tasks := by
  constructor
  · exact (List.filter_eq_self.mpr fun t ht => by simp [h t ht]).symm
  · intro name
    refine ⟨Or.inl, ?_⟩
    rintro (hname | ⟨t, ht, hready, -⟩)
    · exact hname
    · rw [h t ht] at hready
      cases hready
  · refine ⟨[], ?_, runs_nil known⟩
    rw [List.filter_eq_nil_iff.mpr fun t ht => by simp [h t ht]]

theorem Settles.of_round {known final : List String} {tasks waiting : List Task}
    (h : Settles (known ++ (tasks.filter (Task.isReady known)).filterMap Task.result)
      (tasks.filter (!Task.isReady known ·)) final waiting) : Settles known tasks final waiting := by
  obtain ⟨hwaiting, hmem, order, hperm, hruns⟩ := h
  have hsub : known ⊆ final := fun name hname => (hmem name).mpr (Or.inl (List.mem_append_left _ hname))
  have hmono (t : Task) (ht : t.isReady known = true) : t.isReady final = true := Task.isReady_mono hsub ht
  constructor
  · rw [hwaiting, List.filter_filter]
    congr 1
    funext t
    cases hk : t.isReady known with
    | false => simp
    | true => simp [hmono t hk]
  · intro name
    rw [hmem name]
    constructor
    · rintro (hname | ⟨t, ht, hready, hres⟩)
      · rcases List.mem_append.mp hname with hname | hname
        · exact Or.inl hname
        · obtain ⟨t, ht, hres⟩ := List.mem_filterMap.mp hname
          obtain ⟨ht, hready⟩ := List.mem_filter.mp ht
          exact Or.inr ⟨t, ht, hmono t hready, hres⟩
      · exact Or.inr ⟨t, (List.mem_filter.mp ht).1, hready, hres⟩
    · rintro (hname | ⟨t, ht, hready, hres⟩)
      · exact Or.inl (List.mem_append_left _ hname)
      · cases hk : t.isReady known with
        | true =>
            refine Or.inl (List.mem_append_right _ (List.mem_filterMap.mpr ⟨t, ?_, hres⟩))
            exact List.mem_filter.mpr ⟨ht, hk⟩
        | false => exact Or.inr ⟨t, List.mem_filter.mpr ⟨ht, by simp [hk]⟩, hready, hres⟩
  · refine ⟨tasks.filter (Task.isReady known) ++ order, ?_, runs_append_of_ready (fun t ht => ?_) hruns⟩
    · have hfirst : tasks.filter (Task.isReady known) =
          (tasks.filter (Task.isReady final)).filter (Task.isReady known) := by
        rw [List.filter_filter]
        congr 1
        funext t
        cases hk : t.isReady known with
        | false => simp
        | true => simp [hmono t hk]
      have hrest : (tasks.filter (!Task.isReady known ·)).filter (Task.isReady final) =
          (tasks.filter (Task.isReady final)).filter (!Task.isReady known ·) := by
        rw [List.filter_filter, List.filter_filter]
        congr 1
        funext t
        exact Bool.and_comm _ _
      rw [hrest] at hperm
      rw [hfirst]
      exact (hperm.append_left _).trans (List.filter_append_perm _ _)
    · exact (List.mem_filter.mp ht).2

theorem runRounds_settles (rounds : Nat) (known : List String) (tasks : List Task) (h : tasks.length ≤ rounds) :
    Settles known tasks (runRounds rounds known tasks).1 (runRounds rounds known tasks).2 := by
  induction rounds generalizing known tasks with
  | zero =>
      have hnil : tasks = [] := by simpa using h
      subst hnil
      exact settles_of_none_ready (by simp)
  | succ rounds ih =>
      simp only [runRounds, List.partition_eq_filter_filter]
      split
      · rename_i hempty
        refine settles_of_none_ready fun t ht => ?_
        rw [List.isEmpty_iff, List.filter_eq_nil_iff] at hempty
        simpa using hempty t ht
      · rename_i hsome
        refine Settles.of_round (ih _ _ ?_)
        have hlt : (tasks.filter (!Task.isReady known ·)).length < tasks.length := by
          rw [List.length_filter_lt_length_iff_exists]
          rw [List.isEmpty_iff, ← ne_eq, ← List.length_pos_iff] at hsome
          obtain ⟨t, ht⟩ := List.exists_mem_of_length_pos hsome
          obtain ⟨ht, hready⟩ := List.mem_filter.mp ht
          exact ⟨t, ht, by simp [hready]⟩
        omega

namespace Pipeline

def CanRun (p : Pipeline) (order : List Task) : Prop := Runs (p.namesWithRole .input) order

/-- A task is stuck if it stands in no order in which some of the tasks can run. -/
def Stuck (p : Pipeline) (t : Task) : Prop :=
  ∀ order : List Task, order.Subperm p.tasks → p.CanRun order → t ∉ order

def Obtainable (p : Pipeline) (name : String) : Prop :=
  name ∈ p.namesWithRole .input ∨ ∃ t ∈ p.tasks, ¬ p.Stuck t ∧ t.result = some name

theorem resolution_settles (p : Pipeline) :
    Settles (p.namesWithRole .input) p.tasks p.resolution.1 p.resolution.2 :=
  runRounds_settles _ _ _ (Nat.le_refl _)

theorem stuck_iff (p : Pipeline) {t : Task} (ht : t ∈ p.tasks) :
    p.Stuck t ↔ t.isReady p.resolution.1 = false := by
  obtain ⟨-, hmem, order, hperm, hruns⟩ := p.resolution_settles
  constructor
  · intro hstuck
    by_contra hready
    rw [Bool.not_eq_false] at hready
    refine hstuck order (hperm.subperm.trans List.filter_sublist.subperm) hruns ?_
    exact hperm.mem_iff.mpr (List.mem_filter.mpr ⟨ht, hready⟩)
  · intro hwait other hsub hother hin
    have hready : ∀ u ∈ other, u.isReady p.resolution.1 = true :=
      hother.ready (fun name hname => (hmem name).mpr (Or.inl hname))
        (fun u hu hready name hres => (hmem name).mpr (Or.inr ⟨u, hsub.subset hu, hready, hres⟩))
    rw [hready t hin] at hwait
    cases hwait

theorem obtainable_iff (p : Pipeline) (name : String) : p.Obtainable name ↔ name ∈ p.resolution.1 := by
  rw [p.resolution_settles.mem_final name]
  refine or_congr Iff.rfl (exists_congr fun t => and_congr_right fun ht => ?_)
  rw [p.stuck_iff ht, Bool.not_eq_false]

open Classical in
theorem filter_stuck (p : Pipeline) : p.tasks.filter (fun t => decide (p.Stuck t)) = p.resolution.2 := by
  rw [p.resolution_settles.waiting_eq]
  refine List.filter_congr fun t ht => ?_
  rw [Bool.eq_iff_iff, decide_eq_true_iff, p.stuck_iff ht, Bool.not_eq_true']

theorem exists_order_iff (p : Pipeline) :
    (∃ order : List Task, order.Perm p.tasks ∧ p.CanRun order) ↔ p.resolution.2 = [] := by
  obtain ⟨hwaiting, -, order, hperm, hruns⟩ := p.resolution_settles
  rw [hwaiting, List.filter_eq_nil_iff]
  constructor
  · rintro ⟨all, hall, hcan⟩ t ht hwait
    have hstuck := (p.stuck_iff ht).mpr (by simpa using hwait)
    exact hstuck all hall.subperm hcan (hall.mem_iff.mpr ht)
  · intro hnone
    refine ⟨order, ?_, hruns⟩
    rw [List.filter_eq_self.mpr fun t ht => by simpa using hnone t ht] at hperm
    exact hperm

open Classical in
/-- A pipeline is resolvable if and only if its tasks can run in some order. Otherwise the fault
lists, in the order of the tasks, exactly those that are stuck, each with the dependencies that can
not be obtained; all other tasks can run. -/
theorem resolvable_iff_exists_order (p : Pipeline) :
    (p.resolvable = .ok () ↔ ∃ order : List Task, order.Perm p.tasks ∧ p.CanRun order) ∧
      (∀ fault, p.resolvable = .error fault ↔ (∃ t ∈ p.tasks, p.Stuck t) ∧
        fault = .unresolvable ((p.tasks.filter fun t => decide (p.Stuck t)).map fun t =>
          (t.title, t.dependencies.filter fun name => decide (¬ p.Obtainable name)))) ∧
      ∃ order : List Task, order.Perm (p.tasks.filter fun t => decide (¬ p.Stuck t)) ∧ p.CanRun order := by
  have hmissing : (fun t : Task => (t.title, t.dependencies.filter fun name => decide (¬ p.Obtainable name))) =
      fun t => (t.title, t.missingNames p.resolution.1) := by
    funext t
    congr 1
    refine List.filter_congr fun name _ => ?_
    rw [Bool.eq_iff_iff, decide_eq_true_iff, p.obtainable_iff]
    simp
  have hsome : (∃ t ∈ p.tasks, p.Stuck t) ↔ p.resolution.2 ≠ [] := by
    rw [← p.filter_stuck, ne_eq, List.filter_eq_nil_iff]
    simp
  refine ⟨?_, ?_, ?_⟩
  · rw [exists_order_iff]
    by_cases hnil : p.resolution.2 = [] <;> simp [resolvable, hnil]
  · intro fault
    rw [hsome, filter_stuck, hmissing]
    by_cases hnil : p.resolution.2 = []
    · simp [resolvable, hnil]
    · simp [resolvable, hnil, eq_comm (a := fault)]
  · obtain ⟨-, -, order, hperm, hruns⟩ := p.resolution_settles
    refine ⟨order, ?_, hruns⟩
    rw [List.filter_congr fun t ht => ?_]
    · exact hperm
    · rw [Bool.eq_iff_iff, decide_eq_true_iff, p.stuck_iff ht, Bool.not_eq_false]

end Pipeline

end BookCompiler
