import Mathlib
import CrewFlow.Proofs.Execution.Board
import CrewFlow.Proofs.Service.Course
/-!
# Shops

A shop is a ledger with the submissions that are carried out on it and the list of all durable writes. Its
moves are the single steps of all of them, in any order. Whatever the others do, each run is on its own
course.
-/
set_option autoImplicit false

namespace CrewFlow.Service

open Build (Collaborators)
open Execution (Background Board Cache Happening Ledger Record Store map_set_of_eq)
open Time (Instant)

/-- A submission that is carried out. -/
structure Errand where
  submission : Submission
  flowId : String
  background : Background
  work : Work

def Errand.id (e : Errand) : String := e.background.record.id

/-- A ledger, the submissions in the order in which they came, and all durable writes. -/
structure Shop where
  ledger : Ledger
  errands : List Errand
  log : List Write

namespace Shop

def empty : Shop := ⟨.empty, [], []⟩

/-- What can happen in a shop: a submission comes, a run takes a step, its work goes on, or the cache is
changed by those who ask for a status and those who delete what is cached. -/
inductive Move (c : Collaborators Id) (shop : Shop) : Shop → Prop where
  | submitted (s : Submission) (flowId id : String) (time : Instant) {store : Store}
      (inserted : shop.ledger.store.insert (s.pending id time) = .ok store) :
      Move c shop
        { ledger := ⟨store, shop.ledger.cache.put (s.pending id time)⟩
          errands := shop.errands ++ [⟨s, flowId, .start (s.pending id time), .waiting⟩]
          log := shop.log ++ [.insert (s.pending id time)] }
  | stepped (i : Nat) (time : Instant) (happening : Happening) {e : Errand} {ledger : Ledger}
      {after : Background} (standing : shop.errands[i]? = some e)
      (own : ∀ result, happening = .finished result → e.work = .done result)
      (step : e.background.step shop.ledger time happening = some (ledger, after)) :
      Move c shop
        { ledger
          errands := shop.errands.set i { e with background := after }
          log := shop.log ++ written e.background happening }
  | worked (i : Nat) {e : Errand} {store : Store} {work : Work} (standing : shop.errands[i]? = some e)
      (busy : e.background.phase = .working)
      (progress : Progress c e.submission e.flowId shop.ledger.store e.work store work) :
      Move c shop
        { shop with
          ledger := { shop.ledger with store }
          errands := shop.errands.set i { e with work } }
  | cached (cache : Cache) : Move c shop { shop with ledger := { shop.ledger with cache } }

/-- One shop comes from another by any number of moves. -/
def Leads (c : Collaborators Id) : Shop → Shop → Prop := Relation.ReflTransGen (Move c)

/-! ## What is known of every shop -/

/-- The runs of a shop on their ledger. -/
def board (shop : Shop) : Board := ⟨shop.ledger, shop.errands.map (·.background), []⟩

def ids (shop : Shop) : List String := shop.errands.map Errand.id

/-- The runs have ids of their own and their records in the store. Each write is about one of them, and each
of them is on its course. The store holds what has been written. -/
structure Sound (c : Collaborators Id) (shop : Shop) : Prop where
  onBoard : shop.board.Sound
  about : ∀ w ∈ shop.log, w.runId ∈ shop.ids
  courses : ∀ e ∈ shop.errands, ∃ time, Course c e.submission e.flowId (e.submission.pending e.id time)
    (writesOf e.id shop.log) e.background e.work
  replayed : replay shop.log = .ok { shop.ledger.store with snapshots := [] }

theorem sound_empty (c : Collaborators Id) : Sound c empty where
  onBoard := Board.sound_empty
  about := by simp [empty]
  courses := by simp [empty]
  replayed := rfl

section Writes
variable {log : List Write} {id : String}

theorem writesOf_append_of_ne {more : List Write} (others : ∀ w ∈ more, w.runId ≠ id) :
    writesOf id (log ++ more) = writesOf id log := by
  have nothing : writesOf id more = [] := by
    refine List.filter_eq_nil_iff.mpr fun w member => ?_
    simpa using others w member
  rw [writesOf, List.filter_append]
  exact (congrArg _ nothing).trans (List.append_nil _)

theorem writesOf_append_of_eq {more : List Write} (own : ∀ w ∈ more, w.runId = id) :
    writesOf id (log ++ more) = writesOf id log ++ more := by
  have all : writesOf id more = more := by
    refine List.filter_eq_self.mpr fun w member => ?_
    simpa using own w member
  rw [writesOf, List.filter_append]
  exact congrArg _ all

theorem runId_of_mem_written {b : Background} {happening : Happening} {w : Write}
    (member : w ∈ written b happening) : w.runId = b.record.id := by
  cases happening with
  | persisted =>
      cases List.mem_singleton.mp member
      rfl
  | _ => cases member

theorem apply_without_states {s next : Store} {w : Write} (applied : w.apply s = .ok next) :
    w.apply { s with snapshots := [] } = .ok { next with snapshots := [] } := by
  cases w with
  | insert r =>
      rw [Write.apply, Store.insert] at applied ⊢
      split at applied
      · cases applied
      · next fresh =>
          cases applied
          exact if_neg fresh
  | update r =>
      rw [Write.apply, Store.update] at applied ⊢
      split at applied
      · next found =>
          cases applied
          exact if_pos found
      · cases applied

theorem replay_append {s next : Store} {w : Write} (replayed : replay log = .ok { s with snapshots := [] })
    (applied : w.apply s = .ok next) : replay (log ++ [w]) = .ok { next with snapshots := [] } := by
  rw [replay] at replayed ⊢
  rw [List.foldlM_append, replayed]
  simp only [bind, Except.bind, List.foldlM_cons, List.foldlM_nil, apply_without_states applied]
  rfl

end Writes

section Moves
variable {c : Collaborators Id} {shop next : Shop}

theorem id_of_step {e : Errand} {l ledger : Ledger} {time : Instant} {happening : Happening}
    {after : Background} (step : e.background.step l time happening = some (ledger, after)) :
    after.record.id = e.id := Record.id_of_origin (Background.stepped_of_step step).origin

theorem run_of_errand {i : Nat} {e : Errand} (standing : shop.errands[i]? = some e) :
    shop.board.runs[i]? = some e.background := by
  rw [board, List.getElem?_map, standing, Option.map_some]

theorem Sound.unique (sound : Sound c shop) {i j : Nat} {e other : Errand}
    (first : shop.errands[i]? = some e) (second : shop.errands[j]? = some other) (same : e.id = other.id) :
    i = j := by
  exact sound.onBoard.unique (run_of_errand first) (run_of_errand second) same

theorem Sound.nodup_ids (sound : Sound c shop) : shop.ids.Nodup := by
  have distinct := sound.onBoard.distinct
  rw [board, List.map_map] at distinct
  exact distinct

theorem Sound.fresh (sound : Sound c shop) {r : Record} {store : Store}
    (inserted : shop.ledger.store.insert r = .ok store) : r.id ∉ shop.ids := by
  intro taken
  obtain ⟨e, member, same⟩ := List.mem_map.mp taken
  obtain ⟨old, stored, _⟩ := sound.onBoard.kept e.background (List.mem_map_of_mem member)
  have absent : shop.ledger.store.record? e.id = none := same ▸ Store.record?_of_insert inserted
  exact absurd (stored.symm.trans absent) (Option.some_ne_none old)

/-- Of an errand that is in a shop after one errand has been replaced by another: it is the new one, or has
another id than the one that was replaced. -/
theorem Sound.mem_set (sound : Sound c shop) {i : Nat} {e new other : Errand}
    (standing : shop.errands[i]? = some e) (member : other ∈ shop.errands.set i new) :
    other = new ∨ other ∈ shop.errands ∧ other.id ≠ e.id := by
  obtain ⟨j, position⟩ := List.mem_iff_getElem?.mp member
  by_cases here : i = j
  · subst here
    obtain ⟨below, _⟩ := List.getElem?_eq_some_iff.mp standing
    rw [List.getElem?_set_self below] at position
    exact .inl (Option.some.inj position).symm
  · rw [List.getElem?_set_ne here] at position
    exact .inr ⟨List.mem_of_getElem? position, fun same => here (sound.unique standing position same.symm)⟩

theorem Sound.submitted (sound : Sound c shop) (s : Submission) (flowId id : String) (time : Instant)
    {store : Store} (inserted : shop.ledger.store.insert (s.pending id time) = .ok store) :
    Sound c
      { ledger := ⟨store, shop.ledger.cache.put (s.pending id time)⟩
        errands := shop.errands ++ [⟨s, flowId, .start (s.pending id time), .waiting⟩]
        log := shop.log ++ [.insert (s.pending id time)] } := by
  have fresh : id ∉ shop.ids := sound.fresh inserted
  refine ⟨?_, ?_, ?_, replay_append sound.replayed inserted⟩
  · rw [board, List.map_append]
    exact Board.sound_move sound.onBoard (.submitted inserted)
  · intro w member
    rw [ids, List.map_append]
    rcases List.mem_append.mp member with old | new
    · exact List.mem_append_left _ (sound.about w old)
    · cases List.mem_singleton.mp new
      exact List.mem_append_right _ List.mem_cons_self
  · intro e member
    rcases List.mem_append.mp member with old | new
    · obtain ⟨first, course⟩ := sound.courses e old
      refine ⟨first, ?_⟩
      rw [writesOf_append_of_ne]
      · exact course
      · intro w written same
        cases List.mem_singleton.mp written
        exact fresh (List.mem_map.mpr ⟨e, old, same.symm⟩)
    · cases List.mem_singleton.mp new
      refine ⟨time, ?_⟩
      have nothing : writesOf id shop.log = [] := by
        refine List.filter_eq_nil_iff.mpr fun w logged same => ?_
        exact fresh (of_decide_eq_true same ▸ sound.about w logged)
      show Course c s flowId (s.pending id time)
        (writesOf id (shop.log ++ [.insert (s.pending id time)])) _ _
      rw [writesOf_append_of_eq, nothing]
      · exact .submitted
      · intro w written
        cases List.mem_singleton.mp written
        rfl

theorem Sound.replay_step (sound : Sound c shop) {i : Nat} {e : Errand} {time : Instant}
    {happening : Happening} {ledger : Ledger} {after : Background} (standing : shop.errands[i]? = some e)
    (step : e.background.step shop.ledger time happening = some (ledger, after)) :
    replay (shop.log ++ written e.background happening) = .ok { ledger.store with snapshots := [] } := by
  cases took_of_step step with
  | persisted phase =>
      obtain ⟨old, stored, same, _⟩ :=
        sound.onBoard.kept e.background (List.mem_of_getElem? (run_of_errand standing))
      obtain ⟨store, updated, _⟩ := Store.record?_update stored same
      have accepted : shop.ledger.store.update e.background.record = .ok store := updated
      have current : (shop.ledger.persist e.background.record).store = store := by
        rw [Ledger.persist, accepted]
      rw [current]
      exact replay_append sound.replayed updated
  | _ => exact (List.append_nil shop.log).symm ▸ sound.replayed

theorem Sound.stepped (sound : Sound c shop) {i : Nat} {e : Errand} {time : Instant}
    {happening : Happening} {ledger : Ledger} {after : Background} (standing : shop.errands[i]? = some e)
    (own : ∀ result, happening = .finished result → e.work = .done result)
    (step : e.background.step shop.ledger time happening = some (ledger, after)) :
    Sound c
      { ledger
        errands := shop.errands.set i { e with background := after }
        log := shop.log ++ written e.background happening } := by
  have named : after.record.id = e.id := id_of_step step
  have sameIds : (shop.errands.set i { e with background := after }).map Errand.id = shop.ids :=
    map_set_of_eq standing named
  refine ⟨?_, ?_, ?_, sound.replay_step standing step⟩
  · have move : Board.Move shop.board (.work i time happening)
        ⟨ledger, shop.board.runs.set i after, []⟩ :=
      .worked (run_of_errand standing) (Background.stepped_of_step step)
    rw [board, List.map_set]
    exact Board.sound_move sound.onBoard move
  · intro w member
    rw [ids, sameIds]
    rcases List.mem_append.mp member with old | new
    · exact sound.about w old
    · rw [runId_of_mem_written new]
      exact List.mem_map_of_mem (List.mem_of_getElem? standing)
  · -- The run goes on along its own course, and of all others nothing is written.
    intro other member
    rcases sound.mem_set standing member with rfl | ⟨old, different⟩
    · obtain ⟨first, course⟩ := sound.courses e (List.mem_of_getElem? standing)
      refine ⟨first, ?_⟩
      have more : writesOf e.id (shop.log ++ written e.background happening) =
          writesOf e.id shop.log ++ written e.background happening :=
        writesOf_append_of_eq fun w new => runId_of_mem_written new
      show Course c e.submission e.flowId (e.submission.pending after.record.id first)
        (writesOf after.record.id (shop.log ++ written e.background happening)) after e.work
      rw [named, more]
      exact course.step own step
    · obtain ⟨first, course⟩ := sound.courses other old
      refine ⟨first, ?_⟩
      rw [writesOf_append_of_ne fun w new same => different (same.symm.trans (runId_of_mem_written new))]
      exact course

theorem Sound.worked (sound : Sound c shop) {i : Nat} {e : Errand} {store : Store} {work : Work}
    (standing : shop.errands[i]? = some e) (busy : e.background.phase = .working)
    (progress : Progress c e.submission e.flowId shop.ledger.store e.work store work) :
    Sound c
      { shop with
        ledger := { shop.ledger with store }
        errands := shop.errands.set i { e with work } } := by
  have sameIds : (shop.errands.set i { e with work }).map Errand.id = shop.ids :=
    map_set_of_eq standing rfl
  have sameRuns : (shop.errands.set i { e with work }).map (·.background) =
      shop.errands.map (·.background) := map_set_of_eq standing rfl
  have records : store.records = shop.ledger.store.records := progress.records_eq
  refine ⟨?_, ?_, ?_, ?_⟩
  · rw [board, sameRuns]
    refine ⟨sound.onBoard.distinct, fun run member => ?_, sound.onBoard.about⟩
    have lookup : store.record? run.record.id = shop.ledger.store.record? run.record.id := by
      rw [Store.record?, records, Store.record?]
    exact lookup ▸ sound.onBoard.kept run member
  · intro w member
    rw [ids, sameIds]
    exact sound.about w member
  · intro other member
    rcases sound.mem_set standing member with rfl | ⟨old, different⟩
    · obtain ⟨first, course⟩ := sound.courses e (List.mem_of_getElem? standing)
      refine ⟨first, ?_⟩
      show Course c e.submission e.flowId (e.submission.pending e.id first) (writesOf e.id shop.log)
        e.background work
      exact course.progress busy progress
    · exact sound.courses other old
  · rw [sound.replayed]
    show Except.ok (⟨shop.ledger.store.records, []⟩ : Store) = .ok ⟨store.records, []⟩
    rw [records]

theorem sound_move (sound : Sound c shop) (move : Move c shop next) : Sound c next := by
  cases move with
  | submitted s flowId id time inserted => exact sound.submitted s flowId id time inserted
  | stepped i time happening standing own step => exact sound.stepped standing own step
  | worked i standing busy progress => exact sound.worked standing busy progress
  | cached cache =>
      have onBoard : Board.Sound ⟨⟨shop.ledger.store, cache⟩, shop.board.runs, []⟩ :=
        ⟨sound.onBoard.distinct, sound.onBoard.kept, sound.onBoard.about⟩
      exact ⟨onBoard, sound.about, sound.courses, sound.replayed⟩

theorem sound_of_leads (sound : Sound c shop) (leads : Leads c shop next) : Sound c next := by
  induction leads with
  | refl => exact sound
  | tail _ move ih => exact sound_move ih move

end Moves

/-! ## Ends -/

section Ends
variable {c : Collaborators Id} {shop next : Shop}

theorem not_ended_of_step {b after : Background} {l ledger : Ledger} {time : Instant}
    {happening : Happening} (step : b.step l time happening = some (ledger, after)) : b.phase ≠ .ended := by
  cases Background.stepped_of_step step with
  | changed status result now settled => exact settled.2.2
  | persisted phase => simp [phase]
  | published phase => simp [phase]

theorem mem_set_of_ended {i : Nat} {e new other : Errand} (standing : shop.errands[i]? = some other)
    (active : other.background.phase ≠ .ended) (member : e ∈ shop.errands)
    (ended : e.background.phase = .ended) : e ∈ shop.errands.set i new := by
  obtain ⟨j, position⟩ := List.mem_iff_getElem?.mp member
  have elsewhere : i ≠ j := by
    rintro rfl
    cases standing.symm.trans position
    exact active ended
  exact List.mem_iff_getElem?.mpr ⟨j, by rw [List.getElem?_set_ne elsewhere, position]⟩

/-- Nothing is done any more in a run that has ended, and nothing is written for it. -/
theorem Sound.kept_of_ended (sound : Sound c shop) (move : Move c shop next) {e : Errand}
    (member : e ∈ shop.errands) (ended : e.background.phase = .ended) :
    e ∈ next.errands ∧ writesOf e.id next.log = writesOf e.id shop.log := by
  cases move with
  | submitted s flowId id time inserted =>
      refine ⟨List.mem_append_left _ member, writesOf_append_of_ne fun w written same => ?_⟩
      cases List.mem_singleton.mp written
      exact sound.fresh inserted (List.mem_map.mpr ⟨e, member, same.symm⟩)
  | @stepped i time happening other ledger after standing own step =>
      have active := not_ended_of_step step
      refine ⟨mem_set_of_ended standing active member ended, writesOf_append_of_ne fun w written same => ?_⟩
      obtain ⟨j, position⟩ := List.mem_iff_getElem?.mp member
      have own : other.id = e.id := (runId_of_mem_written written).symm.trans same
      -- Who writes about the run is the run itself, but that takes no step any more.
      cases sound.unique standing position own
      cases standing.symm.trans position
      exact active ended
  | worked i standing busy progress =>
      exact ⟨mem_set_of_ended standing (by simp [busy]) member ended, rfl⟩
  | cached cache => exact ⟨member, rfl⟩

theorem Sound.kept_after_end (sound : Sound c shop) {later : Shop} (leads : Leads c shop later)
    {e : Errand} (member : e ∈ shop.errands) (ended : e.background.phase = .ended) :
    e ∈ later.errands ∧ writesOf e.id later.log = writesOf e.id shop.log := by
  induction leads with
  | refl => exact ⟨member, rfl⟩
  | tail leads move ih =>
      obtain ⟨still, same⟩ := ih
      obtain ⟨there, unchanged⟩ := (sound_of_leads sound leads).kept_of_ended move still ended
      exact ⟨there, unchanged.trans same⟩

end Ends

end Shop

end CrewFlow.Service
