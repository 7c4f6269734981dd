import Mathlib
import CrewFlow.Execution.Background
/-!
# Lookups in store and cache

What a lookup of an id gives after each change of the cache, of the store and of the ledger that holds
both, and what a status query and a background run do to them in one step.
-/
set_option autoImplicit false

namespace CrewFlow.Execution

open Time (Instant)
open Json (Value)

/-! ## Cache -/

namespace Cache

variable {c : Cache} {r : Record} {id : String}

@[simp]
theorem get?_empty : Cache.empty.get? id = none := rfl

theorem get?_remove (other : String) :
    (c.remove id).get? other = if other = id then none else c.get? other := by
  obtain ⟨entries⟩ := c
  simp only [remove, get?]
  induction entries with
  | nil => simp
  | cons first rest ih =>
      by_cases dropped : first.id = id
      · rw [List.filter_cons_of_neg (by simpa using dropped), ih]
        by_cases same : other = id
        · simp [same]
        · have differs : first.id ≠ other := fun equal => same (equal.symm.trans dropped)
          simp [same, differs]
      · rw [List.filter_cons_of_pos (by simpa using dropped)]
        by_cases same : first.id = other
        · have differs : other ≠ id := fun equal => dropped (same.trans equal)
          simp [same, differs]
        · rw [List.find?_cons_of_neg (by simpa using same), ih,
            List.find?_cons_of_neg (by simpa using same)]

theorem get?_put (other : String) :
    (c.put r).get? other = if other = r.id then some r else c.get? other := by
  have tail : (c.remove r.id).get? other = if other = r.id then none else c.get? other :=
    get?_remove other
  simp only [get?] at tail ⊢
  by_cases same : other = r.id
  · simp [put, same]
  · rw [if_neg same] at tail ⊢
    rw [put, List.find?_cons_of_neg (by simpa using fun equal => same equal.symm), tail]

theorem get?_putIfAbsent (other : String) :
    (c.putIfAbsent r).get? other =
      if other = r.id then some ((c.get? r.id).getD r) else c.get? other := by
  cases present : c.get? r.id with
  | none => simp [putIfAbsent, present, get?_put]
  | some old =>
      have kept : c.putIfAbsent r = c := if_pos (by rw [present]; rfl)
      rw [kept]
      by_cases same : other = r.id
      · rw [if_pos same, same, present, Option.getD_some]
      · rw [if_neg same]

end Cache

/-! ## Records -/

namespace Record

def origin (r : Record) : String × Option String × String × Instant :=
  (r.id, r.workflowId, r.name, r.createdAt)

@[simp]
theorem origin_transition (r : Record) (status : Status) (result : Option Value) (now : Instant) :
    (r.transition status result now).origin = r.origin := by
  unfold transition
  split <;> rfl

theorem id_of_origin {r other : Record} (same : r.origin = other.origin) : r.id = other.id :=
  congrArg Prod.fst same

@[simp]
theorem id_transition (r : Record) (status : Status) (result : Option Value) (now : Instant) :
    (r.transition status result now).id = r.id := id_of_origin (origin_transition ..)

end Record

/-! ## Store -/

namespace Store

variable {s next : Store} {r old : Record} {id : String}

@[simp]
theorem record?_empty : Store.empty.record? id = none := rfl

theorem id_of_record? (found : s.record? id = some r) : r.id = id := by
  have same := List.find?_some found
  simpa using same

theorem amended_of_origin (same : old.origin = r.origin) : amended old r = r := by
  simp only [Record.origin, Prod.mk.injEq] at same
  obtain ⟨id, workflowId, name, createdAt⟩ := same
  cases old
  cases r
  simp_all [amended]

theorem record?_insert (inserted : s.insert r = .ok next) (other : String) :
    next.record? other = if other = r.id then some r else s.record? other := by
  unfold insert at inserted
  split at inserted
  · cases inserted
  · next fresh =>
      have absent : s.record? r.id = none := by simpa using fresh
      cases inserted
      simp only [record?] at absent ⊢
      by_cases same : other = r.id
      · simp [same, absent]
      · have differs : r.id ≠ other := fun equal => same equal.symm
        simp [same, differs]

theorem record?_of_insert (inserted : s.insert r = .ok next) : s.record? r.id = none := by
  unfold insert at inserted
  split at inserted
  · cases inserted
  · next fresh => simpa using fresh

theorem insert_of_fresh (fresh : s.record? r.id = none) :
    s.insert r = .ok { s with records := s.records ++ [r] } := by
  simp [insert, fresh]

theorem insert_of_taken (there : s.record? r.id = some old) : s.insert r = .error .database := by
  simp [insert, there]

def revised (s : Store) (r : Record) : Store :=
  { s with records := s.records.map fun old => if old.id = r.id then amended old r else old }

theorem update_of_there (there : s.record? r.id = some old) : s.update r = .ok (s.revised r) := by
  simp [update, there, revised]

theorem update_of_absent (absent : s.record? r.id = none) :
    s.update r = .error (.invalid ("no execution '" ++ r.id ++ "'")) := by
  simp [update, absent]

theorem ids_revised : (s.revised r).records.map (·.id) = s.records.map (·.id) := by
  rw [revised, List.map_map]
  apply List.map_congr_left
  intro x _
  simp only [Function.comp_apply]
  split <;> rfl

theorem record?_revised (there : s.record? r.id = some old) :
    (s.revised r).record? = Function.update s.record? r.id (some (amended old r)) := by
  have keeps : ∀ x : Record, (if x.id = r.id then amended x r else x).id = x.id := by
    intro x
    split <;> rfl
  funext other
  have lookup : (s.revised r).record? other =
      (s.record? other).map fun x => if x.id = r.id then amended x r else x := by
    rw [record?, revised, List.find?_map]
    simp [keeps, record?]
  rw [lookup]
  by_cases same : other = r.id
  · subst same
    rw [there, Function.update_self, Option.map_some, if_pos (id_of_record? there)]
  · rw [Function.update_of_ne same]
    cases found : s.record? other with
    | none => rfl
    | some x =>
        have named := id_of_record? found
        rw [Option.map_some, if_neg (named ▸ same)]

theorem record?_update (stored : s.record? r.id = some old) (same : old.origin = r.origin) :
    ∃ next, s.update r = .ok next ∧
      ∀ other, next.record? other = if other = r.id then some r else s.record? other := by
  refine ⟨s.revised r, update_of_there stored, ?_⟩
  intro other
  rw [record?_revised stored, Function.update_apply, amended_of_origin same]

/-- What is read back of a record differs from it in the result only. -/
theorem read_eq {back : Record} (readable : read r = .ok back) :
    back = { r with result := back.result } := by
  simp only [read, bind, Except.bind] at readable
  split at readable
  · cases readable
  · split at readable
    · cases readable
    · split at readable
      · cases readable
      · split at readable
        · cases readable
        · cases readable
          rfl

theorem get_eq_some_iff {back : Record} :
    s.get id = .ok (some back) ↔ ∃ r, s.record? id = some r ∧ read r = .ok back := by
  unfold get
  cases found : s.record? id with
  | none => simp
  | some r => cases readable : read r <;> simp [Except.map, readable]

end Store

/-! ## Ledger -/

namespace Ledger

variable {l next : Ledger} {r : Record}

theorem submitted (accepted : l.submit r = .ok next) :
    ∃ store, l.store.insert r = .ok store ∧ next = ⟨store, l.cache.put r⟩ := by
  unfold submit at accepted
  cases inserted : l.store.insert r with
  | error e => simp [inserted, Except.map] at accepted
  | ok store =>
      rw [inserted] at accepted
      cases accepted
      exact ⟨store, rfl, rfl⟩

@[simp]
theorem cache_persist : (l.persist r).cache = l.cache := by
  unfold persist
  split <;> rfl

@[simp]
theorem store_publish : (l.publish r).store = l.store := rfl

@[simp]
theorem cache_publish : (l.publish r).cache = l.cache.put r := rfl

@[simp]
theorem store_forget (id : String) : (l.forget id).store = l.store := rfl

@[simp]
theorem cache_forget (id : String) : (l.forget id).cache = l.cache.remove id := rfl

theorem record?_persist {old : Record} (stored : l.store.record? r.id = some old)
    (same : old.origin = r.origin) (other : String) :
    (l.persist r).store.record? other = if other = r.id then some r else l.store.record? other := by
  obtain ⟨store, updated, lookup⟩ := Store.record?_update stored same
  rw [persist, updated]
  exact lookup other

end Ledger

/-! ## Queries -/

namespace Query

/-- The query is about an id. One that has been told is about none any more. -/
def About (id : String) : Query → Prop
  | .asked wanted => wanted = id
  | .missed wanted => wanted = id
  | .found r => r.id = id
  | .told _ => True

variable {l : Ledger} {q : Query}

@[simp]
theorem store_step : (q.step l).1.store = l.store := by
  cases q with
  | asked id => cases hit : l.cache.get? id <;> simp [step, hit]
  | missed id => cases read : l.store.get id <;> simp [step, read]; split <;> rfl
  | found r => rfl
  | told report => rfl

theorem cache_step (unfound : ∀ r, q ≠ .found r) : (q.step l).1.cache = l.cache := by
  cases q with
  | asked id => cases hit : l.cache.get? id <;> simp [step, hit]
  | missed id => cases read : l.store.get id <;> simp [step, read]; split <;> rfl
  | found r => exact absurd rfl (unfound r)
  | told report => rfl

theorem step_asked (id : String) :
    ((asked id).step l).2 =
      match l.cache.get? id with
      | some r => .told r.report
      | none => .missed id := by
  cases hit : l.cache.get? id <;> simp [step, hit]

theorem step_missed (id : String) :
    ((missed id).step l).2 =
      match l.store.get id with
      | .ok (some r) => .found r
      | _ => .told .unknown := by
  cases read : l.store.get id with
  | error e => simp [step, read]
  | ok found => cases found <;> simp [step, read]

theorem about_step {id : String} (about : q.About id) : (q.step l).2.About id := by
  cases q with
  | asked wanted =>
      rw [step_asked]
      split
      · trivial
      · exact about
  | missed wanted =>
      rw [step_missed]
      split
      · next back read =>
          obtain ⟨r, stored, readable⟩ := Store.get_eq_some_iff.mp read
          have kept : back.id = r.id := by rw [Store.read_eq readable]
          exact (kept.trans (Store.id_of_record? stored)).trans about
      · trivial
  | found r => trivial
  | told report => trivial

theorem told_of_steps (first second third : Ledger) :
    ∃ report, (((q.step first).2.step second).2.step third).2 = .told report := by
  have settled : ∀ (l : Ledger) (report : StatusReport), ((told report).step l).2 = .told report :=
    fun _ _ => rfl
  cases q with
  | asked id =>
      rw [step_asked]
      split
      · exact ⟨_, rfl⟩
      · rw [step_missed]
        split <;> exact ⟨_, rfl⟩
  | missed id =>
      rw [step_missed]
      split <;> exact ⟨_, rfl⟩
  | found r => exact ⟨_, rfl⟩
  | told report => exact ⟨report, rfl⟩

end Query

/-! ## Background runs -/

namespace Background

/-- What one step of a run does: the run changes its own record, writes it to the store, or puts it into
the cache. -/
inductive Stepped (l : Ledger) (b : Background) : Ledger → Background → Prop where
  | changed (status : Status) (result : Option Value) (now : Instant)
      (settled : b.phase ≠ .persisting ∧ b.phase ≠ .publishing ∧ b.phase ≠ .ended) :
      Stepped l b l ⟨b.record.transition status result now, .persisting⟩
  | persisted (phase : b.phase = .persisting) :
      Stepped l b (l.persist b.record) { b with phase := .publishing }
  | published (phase : b.phase = .publishing) :
      Stepped l b (l.publish b.record) { b with phase := afterPublishing b.record }

theorem stepped_of_step {l next : Ledger} {b after : Background} {now : Instant} {h : Happening}
    (step : b.step l now h = some (next, after)) : Stepped l b next after := by
  cases h with
  | connected =>
      by_cases phase : b.phase = .opening
      · rw [Background.step, if_pos phase] at step
        cases step
        exact .changed .running none now (by simp [phase])
      · rw [Background.step, if_neg phase] at step
        cases step
  | refused cause =>
      by_cases phase : b.phase = .opening
      · rw [Background.step, if_pos phase] at step
        cases step
        exact .changed .failed _ now (by simp [phase])
      · rw [Background.step, if_neg phase] at step
        cases step
  | persisted =>
      by_cases phase : b.phase = .persisting
      · rw [Background.step, if_pos phase] at step
        cases step
        exact .persisted phase
      · rw [Background.step, if_neg phase] at step
        cases step
  | published =>
      by_cases phase : b.phase = .publishing
      · rw [Background.step, if_pos phase] at step
        cases step
        exact .published phase
      · rw [Background.step, if_neg phase] at step
        cases step
  | finished outcome =>
      by_cases phase : b.phase = .working
      · rw [Background.step, if_pos phase] at step
        cases step
        cases outcome with
        | ok v => exact .changed .completed (some v) now (by simp [phase])
        | error e => exact .changed .failed _ now (by simp [phase])
      · rw [Background.step, if_neg phase] at step
        cases step

theorem Stepped.origin {l next : Ledger} {b after : Background} (step : Stepped l b next after) :
    after.record.origin = b.record.origin := by
  cases step with
  | changed status result now settled => exact Record.origin_transition ..
  | persisted phase => rfl
  | published phase => rfl

end Background

end CrewFlow.Execution
