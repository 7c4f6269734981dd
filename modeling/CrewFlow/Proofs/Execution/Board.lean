import Mathlib
import CrewFlow.Proofs.Execution.Ledger
/-!
# Boards

A board is a ledger with everybody who works on it: the runs that were submitted and the readers who ask
for their status. Its events are their single steps, in any order. What is known of a board at any time
is that runs have ids of their own and that the store has the record of each of them.
-/
set_option autoImplicit false

namespace CrewFlow.Execution

open Time (Instant)

theorem map_set_of_eq {α β : Type} {f : α → β} {xs : List α} {i : Nat} {x new : α}
    (standing : xs[i]? = some x) (same : f new = f x) : (xs.set i new).map f = xs.map f := by
  obtain ⟨below, here⟩ := List.getElem?_eq_some_iff.mp standing
  rw [List.map_set, same, ← here, ← List.getElem_map f, List.set_getElem_self]
  simpa using below

/-- Somebody who has asked for the status of a run. -/
structure Reader where
  id : String
  query : Query

/-- A ledger, the runs in the order of their submission and the readers in the order in which they came. -/
structure Board where
  ledger : Ledger
  runs : List Background
  readers : List Reader

/-- A submission, a step of a run, a new reader, a step of a reader, or the removal of a cached record. -/
inductive Event where
  | submit (id name : String) (workflowId : Option String) (now : Instant)
  | work (run : Nat) (now : Instant) (happening : Happening)
  | ask (id : String)
  | look (reader : Nat)
  | forget (id : String)

namespace Board

def empty : Board := ⟨.empty, [], []⟩

/-- The board after an event; none when that cannot happen now. -/
def step? (b : Board) : Event → Option Board
  | .submit id name workflowId now =>
    let record := Record.pending id name workflowId now
    match b.ledger.submit record with
    | .ok ledger => some { b with ledger, runs := b.runs ++ [.start record] }
    | .error _ => none
  | .work i now happening => do
    let run ← b.runs[i]?
    let (ledger, run) ← run.step b.ledger now happening
    return { b with ledger, runs := b.runs.set i run }
  | .ask id => some { b with readers := b.readers ++ [⟨id, .asked id⟩] }
  | .look k => do
    let reader ← b.readers[k]?
    let (ledger, query) := reader.query.step b.ledger
    return { b with ledger, readers := b.readers.set k { reader with query } }
  | .forget id => some { b with ledger := b.ledger.forget id }

/-- The board after several events. -/
def run? : List Event → Board → Option Board
  | [], b => some b
  | event :: events, b => (b.step? event).bind (run? events)

theorem run?_append (events rest : List Event) (b : Board) :
    run? (events ++ rest) b = (run? events b).bind (run? rest) := by
  induction events generalizing b with
  | nil => rfl
  | cons event events ih =>
      rw [List.cons_append, run?, run?, Option.bind_assoc]
      exact congrArg _ (funext ih)

/-- What an event does to a board. -/
inductive Move (b : Board) : Event → Board → Prop where
  | submitted {id name : String} {workflowId : Option String} {now : Instant} {store : Store}
      (inserted : b.ledger.store.insert (.pending id name workflowId now) = .ok store) :
      Move b (.submit id name workflowId now)
        { b with
          ledger := ⟨store, b.ledger.cache.put (.pending id name workflowId now)⟩
          runs := b.runs ++ [.start (.pending id name workflowId now)] }
  | worked {i : Nat} {now : Instant} {happening : Happening} {run after : Background}
      {ledger : Ledger} (standing : b.runs[i]? = some run)
      (step : run.Stepped b.ledger ledger after) :
      Move b (.work i now happening) { b with ledger, runs := b.runs.set i after }
  | asked (id : String) :
      Move b (.ask id) { b with readers := b.readers ++ [⟨id, .asked id⟩] }
  | looked {k : Nat} {reader : Reader} (standing : b.readers[k]? = some reader) :
      Move b (.look k)
        { b with
          ledger := (reader.query.step b.ledger).1
          readers := b.readers.set k ⟨reader.id, (reader.query.step b.ledger).2⟩ }
  | forgot (id : String) : Move b (.forget id) { b with ledger := b.ledger.forget id }

theorem move_of_step {b next : Board} {event : Event} (step : b.step? event = some next) :
    Move b event next := by
  cases event with
  | submit id name workflowId now =>
      simp only [step?] at step
      split at step
      · next ledger accepted =>
          obtain ⟨store, inserted, same⟩ := Ledger.submitted accepted
          cases step
          rw [same]
          exact .submitted inserted
      · cases step
  | work i now happening =>
      obtain ⟨run, standing, step⟩ := Option.bind_eq_some_iff.mp step
      obtain ⟨⟨ledger, after⟩, stepped, step⟩ := Option.bind_eq_some_iff.mp step
      cases step
      exact .worked standing (Background.stepped_of_step stepped)
  | ask id =>
      cases step
      exact .asked id
  | look k =>
      obtain ⟨reader, standing, step⟩ := Option.bind_eq_some_iff.mp step
      cases step
      exact .looked standing
  | forget id =>
      cases step
      exact .forgot id

theorem preserves_of_run {P : Board → Prop} {events : List Event} {b last : Board}
    (keeps : ∀ event ∈ events, ∀ {b next : Board}, P b → Move b event next → P next)
    (start : P b) (run : run? events b = some last) : P last := by
  induction events generalizing b with
  | nil =>
      cases run
      exact start
  | cons event events ih =>
      obtain ⟨next, step, rest⟩ := Option.bind_eq_some_iff.mp run
      have after : P next := keeps event List.mem_cons_self start (move_of_step step)
      exact ih (fun e member => keeps e (List.mem_cons_of_mem event member)) after rest

/-! ## What is known of every board -/

/-- Runs have ids of their own. The store has the record of each run: the same as the run has, unless the
run is about to write it. Readers ask for what they came for. -/
structure Sound (b : Board) : Prop where
  distinct : (b.runs.map fun run => run.record.id).Nodup
  kept : ∀ run ∈ b.runs, ∃ r, b.ledger.store.record? run.record.id = some r ∧
    r.origin = run.record.origin ∧ (run.phase ≠ .persisting → r = run.record)
  about : ∀ reader ∈ b.readers, reader.query.About reader.id

theorem sound_empty : Sound empty := by
  constructor <;> simp [empty]

theorem Sound.unique {b : Board} (sound : b.Sound) {i j : Nat} {run other : Background}
    (first : b.runs[i]? = some run) (second : b.runs[j]? = some other)
    (same : run.record.id = other.record.id) : i = j := by
  obtain ⟨below, _⟩ := List.getElem?_eq_some_iff.mp first
  apply (List.getElem?_inj (by simpa using below) sound.distinct).mp
  rw [List.getElem?_map, List.getElem?_map, first, second, Option.map_some, Option.map_some, same]

theorem Sound.mem_set_runs {b : Board} (sound : b.Sound) {i : Nat} {run after other : Background}
    (standing : b.runs[i]? = some run) (member : other ∈ b.runs.set i after) :
    other = after ∨ other ∈ b.runs ∧ other.record.id ≠ run.record.id := by
  obtain ⟨j, position⟩ := List.mem_iff_getElem?.mp member
  by_cases here : i = j
  · subst here
    obtain ⟨below, _⟩ := List.getElem?_eq_some_iff.mp standing
    rw [List.getElem?_set_self below] at position
    exact .inl (Option.some.inj position).symm
  · rw [List.getElem?_set_ne here] at position
    exact .inr ⟨List.mem_of_getElem? position, fun same => here (sound.unique standing position same.symm)⟩

theorem record?_of_stepped {l ledger : Ledger} {run after : Background} {id : String}
    (step : run.Stepped l ledger after) {r : Record} (stored : l.store.record? run.record.id = some r)
    (same : r.origin = run.record.origin) (other : id ≠ run.record.id) :
    ledger.store.record? id = l.store.record? id := by
  cases step with
  | changed status result now settled => rfl
  | persisted phase => rw [Ledger.record?_persist stored same, if_neg other]
  | published phase => rfl

/-- After a step of a run the store has its record as before, or the one that it wrote. -/
theorem kept_of_stepped {l ledger : Ledger} {run after : Background} (step : run.Stepped l ledger after)
    {r : Record} (stored : l.store.record? run.record.id = some r)
    (same : r.origin = run.record.origin) (current : run.phase ≠ .persisting → r = run.record) :
    ∃ r, ledger.store.record? after.record.id = some r ∧ r.origin = after.record.origin ∧
      (after.phase ≠ .persisting → r = after.record) := by
  cases step with
  | changed status result now settled =>
      refine ⟨r, ?_, ?_, fun elsewhere => absurd rfl elsewhere⟩
      · rw [Record.id_transition, stored]
      · rw [Record.origin_transition, same]
  | persisted phase =>
      refine ⟨run.record, ?_, rfl, fun _ => rfl⟩
      rw [Ledger.record?_persist stored same, if_pos rfl]
  | published phase =>
      have written : r = run.record := current (by rw [phase]; simp)
      exact ⟨run.record, by rw [← written]; exact (written ▸ stored), rfl, fun _ => rfl⟩

theorem sound_move {b next : Board} {event : Event} (sound : b.Sound) (move : Move b event next) :
    next.Sound := by
  cases move with
  | @submitted id name workflowId now store inserted =>
      -- Every run is stored under its id, and the store refuses an id that it has.
      have fresh : ∀ run ∈ b.runs, run.record.id ≠ id := by
        intro run member taken
        obtain ⟨r, stored, _⟩ := sound.kept run member
        have absent := Store.record?_of_insert inserted
        rw [taken] at stored
        exact absurd (stored.symm.trans absent) (by simp)
      refine ⟨?_, ?_, sound.about⟩
      · rw [List.map_append, List.nodup_append]
        refine ⟨sound.distinct, List.nodup_singleton _, ?_⟩
        intro taken old new other same
        obtain ⟨run, member, rfl⟩ := List.mem_map.mp old
        cases List.mem_singleton.mp other
        exact fresh run member same
      · intro run member
        rcases List.mem_append.mp member with old | new
        · obtain ⟨r, stored, same, current⟩ := sound.kept run old
          refine ⟨r, ?_, same, current⟩
          exact (Store.record?_insert inserted _).trans ((if_neg (fresh run old)).trans stored)
        · cases List.mem_singleton.mp new
          refine ⟨.pending id name workflowId now, ?_, rfl, fun _ => rfl⟩
          exact (Store.record?_insert inserted _).trans (if_pos rfl)
  | @worked i now happening run after ledger standing step =>
      have named : after.record.id = run.record.id := Record.id_of_origin step.origin
      obtain ⟨r, stored, same, current⟩ := sound.kept run (List.mem_of_getElem? standing)
      refine ⟨?_, ?_, sound.about⟩
      · have names : (b.runs.set i after).map (fun run => run.record.id) =
            b.runs.map fun run => run.record.id := map_set_of_eq standing named
        rw [names]
        exact sound.distinct
      · intro other member
        rcases sound.mem_set_runs standing member with rfl | ⟨old, different⟩
        · exact kept_of_stepped step stored same current
        · rw [record?_of_stepped step stored same different]
          exact sound.kept other old
  | asked id =>
      refine ⟨sound.distinct, sound.kept, ?_⟩
      intro reader member
      rcases List.mem_append.mp member with old | new
      · exact sound.about reader old
      · cases List.mem_singleton.mp new
        rfl
  | @looked k reader standing =>
      refine ⟨sound.distinct, ?_, ?_⟩
      · intro run member
        rw [Query.store_step]
        exact sound.kept run member
      · intro other member
        rcases List.mem_or_eq_of_mem_set member with old | new
        · exact sound.about other old
        · rw [new]
          exact Query.about_step (sound.about reader (List.mem_of_getElem? standing))
  | forgot id => exact ⟨sound.distinct, sound.kept, sound.about⟩

theorem sound_of_run {history : List Event} {b : Board} (reached : run? history empty = some b) :
    b.Sound :=
  preserves_of_run (fun _ _ {_ _} sound move => sound_move sound move) sound_empty reached

end Board

end CrewFlow.Execution
