import Mathlib
import CrewFlow.Crew.Task
/-!
# The arrangement of tasks

A crew takes up its tasks by number and then by name, those without a number behind all others. Tasks that
agree in both keep the order in which they are listed. Where no task has a number, all keep it.
-/
set_option autoImplicit false

namespace CrewFlow.CrewTask

abbrev Place := WithTop Int ×ₗ String

/-- Where a task stands: its number, which is behind all numbers if it has none, and then its name. -/
def place (t : CrewTask) : Place :=
  toLex (t.executionNumber.elim ⊤ fun number => (number : WithTop Int), t.name)

/-- The tasks at a place, in the order in which they are listed. -/
def standingAt (place : Place) (tasks : List CrewTask) : List CrewTask := tasks.filter fun t => t.place = place

/-- No task is behind one that it stands before. -/
def Ascending (tasks : List CrewTask) : Prop := tasks.Pairwise fun a b => a.place ≤ b.place

/-- Tasks as a crew takes them up. -/
structure Arranges (tasks arranged : List CrewTask) : Prop where
  same : arranged.Perm tasks
  unnumbered : (∀ t ∈ tasks, t.executionNumber = none) → arranged = tasks
  numbered : (∃ t ∈ tasks, t.executionNumber ≠ none) → Ascending arranged
  steady : ∀ place, standingAt place arranged = standingAt place tasks

theorem mem_standingAt {place : Place} {tasks : List CrewTask} {t : CrewTask} :
    t ∈ standingAt place tasks ↔ t ∈ tasks ∧ t.place = place := by
  rw [standingAt, List.mem_filter, decide_eq_true_iff]

/-! ## Comparing two tasks -/

theorem precedes_iff (a b : CrewTask) : precedes a b = true ↔ a.place ≤ b.place := by
  have names : ¬b.name < a.name ↔ a.name ≤ b.name := not_lt
  unfold precedes place
  rw [Prod.Lex.toLex_le_toLex]
  cases a.executionNumber with
  | none =>
      cases b.executionNumber with
      | none => simpa only [Bool.not_eq_true', decide_eq_false_iff_not, lt_irrefl, true_and, false_or] using names
      | some y => simp
  | some x =>
      cases b.executionNumber with
      | none => simp
      | some y =>
          simp only [Bool.or_eq_true, Bool.and_eq_true, decide_eq_true_eq, beq_iff_eq, Bool.not_eq_true',
            decide_eq_false_iff_not, names, Option.elim, WithTop.coe_lt_coe, WithTop.coe_inj]

theorem precedes_trans (a b c : CrewTask) (first : precedes a b = true) (second : precedes b c = true) :
    precedes a c = true := by
  rw [precedes_iff] at first second ⊢
  exact first.trans second

theorem precedes_total (a b : CrewTask) : (precedes a b || precedes b a) = true := by
  rw [Bool.or_eq_true, precedes_iff, precedes_iff]
  exact le_total a.place b.place

theorem name_eq_of_place_eq {a b : CrewTask} (same : a.place = b.place) : a.name = b.name :=
  (Prod.mk.inj (toLex_inj.mp same)).2

/-! ## Sorted tasks -/

theorem ascending_mergeSort (tasks : List CrewTask) : Ascending (tasks.mergeSort precedes) :=
  (List.pairwise_mergeSort precedes_trans precedes_total tasks).imp fun ahead => (precedes_iff _ _).mp ahead

/-- Sorting leaves the tasks at one place in the order in which they are listed. -/
theorem standingAt_mergeSort (place : Place) (tasks : List CrewTask) :
    standingAt place (tasks.mergeSort precedes) = standingAt place tasks := by
  have level : (standingAt place tasks).Pairwise fun a b => precedes a b = true := by
    refine List.pairwise_of_forall_mem_list fun a here b there => ?_
    rw [precedes_iff, of_decide_eq_true (List.mem_filter.mp here).2, of_decide_eq_true (List.mem_filter.mp there).2]
  have inside : (standingAt place tasks).Sublist (tasks.mergeSort precedes) :=
    List.sublist_mergeSort precedes_trans precedes_total level List.filter_sublist
  have within : (standingAt place tasks).Sublist (standingAt place (tasks.mergeSort precedes)) := by
    have again := inside.filter fun t => t.place = place
    simpa only [standingAt, List.filter_filter, Bool.and_self] using again
  refine (within.eq_of_length ?_).symm
  exact ((List.mergeSort_perm tasks precedes).filter _).length_eq.symm

theorem Ascending.head_le {t : CrewTask} {tasks : List CrewTask} (ascending : Ascending (t :: tasks)) :
    ∀ u ∈ t :: tasks, t.place ≤ u.place := by
  intro u member
  rcases List.mem_cons.mp member with rfl | behind
  · exact le_rfl
  · exact List.rel_of_pairwise_cons ascending behind

theorem mem_iff_of_standingAt {xs ys : List CrewTask}
    (same : ∀ place, standingAt place xs = standingAt place ys) (t : CrewTask) : t ∈ xs ↔ t ∈ ys := by
  have here : t ∈ standingAt t.place xs ↔ t ∈ standingAt t.place ys := by rw [same]
  simpa only [mem_standingAt, and_true] using here

/-- An ascending list is known by what stands at each place. -/
theorem eq_of_ascending {xs ys : List CrewTask} (first : Ascending xs) (second : Ascending ys)
    (same : ∀ place, standingAt place xs = standingAt place ys) : xs = ys := by
  induction xs generalizing ys with
  | nil =>
      refine (List.eq_nil_iff_forall_not_mem.mpr fun t member => ?_).symm
      exact List.not_mem_nil ((mem_iff_of_standingAt same t).mpr member)
  | cons x xs ih =>
      have mem_iff := mem_iff_of_standingAt same
      cases ys with
      | nil => exact absurd ((mem_iff x).mp List.mem_cons_self) List.not_mem_nil
      | cons y ys =>
          -- Each head is the least of both lists, so both stand first at one place.
          have level : y.place = x.place := by
            refine le_antisymm (second.head_le x ((mem_iff x).mp List.mem_cons_self)) ?_
            exact first.head_le y ((mem_iff y).mpr List.mem_cons_self)
          obtain ⟨rfl, _⟩ : x = y ∧ standingAt x.place xs = standingAt x.place ys := by
            simpa [standingAt, level] using same x.place
          have behind (place : Place) : standingAt place xs = standingAt place ys := by
            by_cases here : x.place = place
            · simpa [standingAt, here] using same place
            · simpa [standingAt, here] using same place
          rw [ih first.of_cons second.of_cons behind]

/-! ## Tasks in order -/

theorem inOrder_perm (tasks : List CrewTask) : (inOrder tasks).Perm tasks := by
  unfold inOrder
  split
  · exact List.mergeSort_perm tasks _
  · exact .refl tasks

theorem inOrder_of_unnumbered {tasks : List CrewTask} (unnumbered : ∀ t ∈ tasks, t.executionNumber = none) :
    inOrder tasks = tasks := by
  have nobody : ¬(tasks.any fun t => t.executionNumber.isSome) = true := by
    simpa using unnumbered
  rw [inOrder, if_neg nobody]

theorem inOrder_of_numbered {tasks : List CrewTask} (numbered : ∃ t ∈ tasks, t.executionNumber ≠ none) :
    inOrder tasks = tasks.mergeSort precedes := by
  have somebody : (tasks.any fun t => t.executionNumber.isSome) = true := by
    simpa [Option.isSome_iff_ne_none] using numbered
  rw [inOrder, if_pos somebody]

theorem numbered_or_unnumbered (tasks : List CrewTask) :
    (∃ t ∈ tasks, t.executionNumber ≠ none) ∨ ∀ t ∈ tasks, t.executionNumber = none := by
  by_cases numbered : ∃ t ∈ tasks, t.executionNumber ≠ none
  · exact .inl numbered
  · exact .inr (by simpa using numbered)

theorem arranges_inOrder (tasks : List CrewTask) : Arranges tasks (inOrder tasks) where
  same := inOrder_perm tasks
  unnumbered := inOrder_of_unnumbered
  numbered somebody := by
    rw [inOrder_of_numbered somebody]
    exact ascending_mergeSort tasks
  steady place := by
    rcases numbered_or_unnumbered tasks with somebody | nobody
    · rw [inOrder_of_numbered somebody, standingAt_mergeSort]
    · rw [inOrder_of_unnumbered nobody]

/-- Tasks are arranged in one way only. -/
theorem Arranges.unique {tasks arranged others : List CrewTask} (first : Arranges tasks arranged)
    (second : Arranges tasks others) : arranged = others := by
  rcases numbered_or_unnumbered tasks with somebody | nobody
  · refine eq_of_ascending (first.numbered somebody) (second.numbered somebody) fun place => ?_
    rw [first.steady, second.steady]
  · rw [first.unnumbered nobody, second.unnumbered nobody]

theorem inOrder_eq_of_perm {tasks others : List CrewTask} (relisted : others.Perm tasks)
    (distinct : (tasks.map (·.name)).Nodup) (numbered : ∃ t ∈ tasks, t.executionNumber ≠ none) :
    inOrder others = inOrder tasks := by
  have numbered' : ∃ t ∈ others, t.executionNumber ≠ none := by
    obtain ⟨t, member, number⟩ := numbered
    exact ⟨t, relisted.mem_iff.mpr member, number⟩
  have same : (inOrder others).Perm (inOrder tasks) :=
    (inOrder_perm others).trans (relisted.trans (inOrder_perm tasks).symm)
  refine same.eq_of_pairwise ?_ ((arranges_inOrder others).numbered numbered')
    ((arranges_inOrder tasks).numbered numbered)
  intro a b here there ahead behind
  have named : a.name = b.name := name_eq_of_place_eq (le_antisymm ahead behind)
  exact List.inj_on_of_nodup_map distinct ((inOrder_perm tasks).mem_iff.mp (same.mem_iff.mp here))
    ((inOrder_perm tasks).mem_iff.mp there) named

/-- Tasks are taken up in the one order that their numbers, their names and, where both agree, their list
give them. With distinct names and any number at all, the list does not matter. -/
theorem taken_up_in_order (tasks : List CrewTask) :
    (∀ arranged, Arranges tasks arranged ↔ arranged = inOrder tasks) ∧
      ∀ others, others.Perm tasks → (tasks.map (·.name)).Nodup →
        (∃ t ∈ tasks, t.executionNumber ≠ none) → inOrder others = inOrder tasks := by
  refine ⟨fun arranged => ⟨fun arranges => ?_, fun same => ?_⟩, fun others => inOrder_eq_of_perm⟩
  · exact arranges.unique (arranges_inOrder tasks)
  · rw [same]
    exact arranges_inOrder tasks

def chore (name : String) (number : Option Int) : CrewTask where
  name
  description := ""
  expectedOutput := ""
  agent := none
  tools := []
  context := []
  executionNumber := number
  isAsync := false

def chores : List CrewTask :=
  [chore "sweep" (some 2), chore "rest" none, chore "cook" (some (-1)), chore "dust" (some 2), chore "nap" none]

theorem chores_taken_up_in_order :
    inOrder chores.reverse = inOrder chores ∧
      (inOrder chores).map (·.name) = ["cook", "dust", "sweep", "nap", "rest"] := by
  obtain ⟨alone, relisted⟩ := taken_up_in_order chores
  refine ⟨relisted chores.reverse (List.reverse_perm chores) (by decide) ?_, by cbv⟩
  exact ⟨chore "sweep" (some 2), List.mem_cons_self, nofun⟩

end CrewFlow.CrewTask
