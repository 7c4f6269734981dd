import Mathlib
import CrewFlow.Proofs.Execution.Board
/-!
# Finished runs

The last checkpoint of a run puts its final record into the cache. A reader who comes later is told the
final status as long as the cache or the store has the say. It is told an earlier one when a reader
from before still carries an earlier record: that reader fills the cache with it as soon as the final
record has been taken out, and the store is not asked again.
-/
set_option autoImplicit false

namespace CrewFlow.Execution

open Json (Value)
open Time (Instant)

namespace Board

/-- Whoever came as the `first` reader or later, asked for an id and was told a report, was told a right
one. -/
def Tells (b : Board) (first : Nat) (id : String) (right : StatusReport → Prop) : Prop :=
  ∀ k reader report, first ≤ k → b.readers[k]? = some reader → reader.id = id →
    reader.query = .told report → right report

/-- Whoever has found a record with an id in the store, and has not yet filled the cache with it, has
found a right one. -/
def Carries (b : Board) (id : String) (right : StatusReport → Prop) : Prop :=
  ∀ reader ∈ b.readers, ∀ r, reader.query = .found r → r.id = id → right r.report

/-- The run with the final record has ended, and the store has that record. -/
structure Closed (record : Record) (b : Board) : Prop where
  sound : b.Sound
  stored : b.ledger.store.record? record.id = some record
  ended : ∀ run ∈ b.runs, run.record.id = record.id → run.phase = .ended

theorem closed_of_published {b next : Board} {i : Nat} {now : Instant} {record : Record}
    (sound : b.Sound) (closing : b.runs[i]? = some ⟨record, .publishing⟩)
    (terminal : record.status.isTerminal = true)
    (published : b.step? (.work i now .published) = some next) :
    Closed record next ∧ next.ledger.cache.get? record.id = some record ∧
      next.readers = b.readers := by
  have after : Background.afterPublishing record = .ended := by
    rw [Background.afterPublishing, if_pos terminal]
  have reached : next = { b with
      ledger := b.ledger.publish record
      runs := b.runs.set i ⟨record, .ended⟩ } := by
    simp only [step?, closing] at published
    simpa [Background.step, after] using published.symm
  have stored : b.ledger.store.record? record.id = some record := by
    obtain ⟨r, stored, _, current⟩ := sound.kept _ (List.mem_of_getElem? closing)
    rw [current (by simp)] at stored
    exact stored
  refine ⟨⟨sound_move sound (move_of_step published), ?_, ?_⟩, ?_, by rw [reached]⟩
  · rw [reached]
    exact stored
  · rw [reached]
    intro run member same
    rcases sound.mem_set_runs closing member with rfl | ⟨_, different⟩
    · rfl
    · exact absurd same different
  · rw [reached, Ledger.cache_publish, Cache.get?_put, if_pos rfl]

section Moves
variable {b next : Board} {event : Event} {record : Record}

theorem Closed.id_ne_of_insert (closed : Closed record b) {r : Record} {store : Store}
    (inserted : b.ledger.store.insert r = .ok store) : record.id ≠ r.id := by
  intro same
  have fresh := Store.record?_of_insert inserted
  rw [← same, closed.stored] at fresh
  cases fresh

theorem Closed.elsewhere (closed : Closed record b) {run after : Background} {ledger : Ledger}
    (member : run ∈ b.runs) (step : run.Stepped b.ledger ledger after) :
    run.record.id ≠ record.id := by
  intro same
  have ended := closed.ended run member same
  cases step with
  | changed status result now settled => exact settled.2.2 ended
  | persisted phase => exact absurd (phase.symm.trans ended) (by simp)
  | published phase => exact absurd (phase.symm.trans ended) (by simp)

theorem closed_move (closed : Closed record b) (move : Move b event next) : Closed record next := by
  refine ⟨sound_move closed.sound move, ?_, ?_⟩
  · cases move with
    | @submitted id name workflowId now store inserted =>
        have other := closed.id_ne_of_insert inserted
        exact (Store.record?_insert inserted _).trans ((if_neg other).trans closed.stored)
    | @worked i now happening run after ledger standing step =>
        have member := List.mem_of_getElem? standing
        obtain ⟨r, stored, same, _⟩ := closed.sound.kept run member
        have other := closed.elsewhere member step
        exact (record?_of_stepped step stored same other.symm).trans closed.stored
    | asked id => exact closed.stored
    | looked standing => rw [Query.store_step, closed.stored]
    | forgot id => exact closed.stored
  · cases move with
    | @submitted id name workflowId now store inserted =>
        intro run member same
        rcases List.mem_append.mp member with old | new
        · exact closed.ended run old same
        · cases List.mem_singleton.mp new
          exact absurd same.symm (closed.id_ne_of_insert inserted)
    | @worked i now happening run after ledger standing step =>
        have present := List.mem_of_getElem? standing
        intro other member same
        rcases List.mem_or_eq_of_mem_set member with old | new
        · exact closed.ended other old same
        · rw [new, Record.id_of_origin step.origin] at same
          exact absurd same (closed.elsewhere present step)
    | asked id => exact closed.ended
    | looked standing => exact closed.ended
    | forgot id => exact closed.ended

/-- What the cache has for a closed record changes in two ways: it is taken out, or a reader fills in what
it has found. -/
theorem Closed.cached_move (closed : Closed record b) (move : Move b event next) :
    next.ledger.cache.get? record.id = b.ledger.cache.get? record.id ∨
    (event = .forget record.id ∧ next.ledger.cache.get? record.id = none) ∨
    ∃ reader ∈ b.readers, ∃ r, reader.query = .found r ∧ r.id = record.id ∧
      next.ledger.cache.get? record.id = some ((b.ledger.cache.get? record.id).getD r) := by
  cases move with
  | @submitted id name workflowId now store inserted =>
      have other := closed.id_ne_of_insert inserted
      exact .inl ((Cache.get?_put _).trans (if_neg other))
  | @worked i now happening run after ledger standing step =>
      have other := closed.elsewhere (List.mem_of_getElem? standing) step
      cases step with
      | changed status result now settled => exact .inl rfl
      | persisted phase => exact .inl (by rw [Ledger.cache_persist])
      | published phase => exact .inl ((Cache.get?_put _).trans (if_neg other.symm))
  | asked id => exact .inl rfl
  | @looked k reader standing =>
      by_cases finding : ∃ r, reader.query = .found r
      · obtain ⟨r, found⟩ := finding
        have filled : (reader.query.step b.ledger).1.cache = b.ledger.cache.putIfAbsent r := by
          rw [found]
          rfl
        by_cases same : record.id = r.id
        · refine .inr (.inr ⟨reader, List.mem_of_getElem? standing, r, found, same.symm, ?_⟩)
          rw [filled, Cache.get?_putIfAbsent, if_pos same, same]
        · left
          rw [filled, Cache.get?_putIfAbsent, if_neg same]
      · left
        rw [Query.cache_step (fun r found => finding ⟨r, found⟩)]
  | forgot id =>
      by_cases same : record.id = id
      · exact .inr (.inl ⟨by rw [same], (Cache.get?_remove _).trans (if_pos same)⟩)
      · exact .inl ((Cache.get?_remove _).trans (if_neg same))

/-- A reader after an event was there before it, has come with it, or has taken one step. -/
theorem reader_move (move : Move b event next) {k : Nat} {reader : Reader}
    (standing : next.readers[k]? = some reader) :
    b.readers[k]? = some reader ∨ (∃ id, reader = ⟨id, .asked id⟩) ∨
      ∃ old, event = .look k ∧ b.readers[k]? = some old ∧ reader = ⟨old.id, (old.query.step b.ledger).2⟩ := by
  cases move with
  | submitted inserted => exact .inl standing
  | worked standing' step => exact .inl standing
  | asked id =>
      by_cases here : k < b.readers.length
      · rw [List.getElem?_append_left here] at standing
        exact .inl standing
      · rw [List.getElem?_append_right (Nat.le_of_not_lt here)] at standing
        have new := List.mem_of_getElem? standing
        exact .inr (.inl ⟨id, List.mem_singleton.mp new⟩)
  | @looked j old present =>
      by_cases here : j = k
      · subst here
        obtain ⟨below, _⟩ := List.getElem?_eq_some_iff.mp present
        rw [List.getElem?_set_self below] at standing
        exact .inr (.inr ⟨old, rfl, present, (Option.some.inj standing).symm⟩)
      · rw [List.getElem?_set_ne here] at standing
        exact .inl standing
  | forgot id => exact .inl standing

/-! ## What later readers are told -/

/-- The final report, from the record itself or from what the store gives back of it. -/
def Final (record back : Record) (report : StatusReport) : Prop :=
  report = record.report ∨ report = back.report

/-- From here on all readers that come are told the final report. -/
structure Settled (record back : Record) (first : Nat) (b : Board) : Prop where
  closed : Closed record b
  cached : ∀ r, b.ledger.cache.get? record.id = some r → Final record back r.report
  carried : b.Carries record.id (Final record back)
  tells : b.Tells first record.id (Final record back)

variable {back : Record} {first : Nat}

theorem Settled.query_step (settled : Settled record back first b)
    (readable : Store.read record = .ok back) {query : Query} (about : query.About record.id)
    (carried : ∀ r, query = .found r → Final record back r.report) :
    (∀ r, (query.step b.ledger).2 = .found r → Final record back r.report) ∧
      ∀ report, (query.step b.ledger).2 = .told report →
        query = .told report ∨ Final record back report := by
  cases query with
  | asked id =>
      cases (about : id = record.id)
      rw [Query.step_asked]
      cases hit : b.ledger.cache.get? record.id with
      | none => simp
      | some r =>
          refine ⟨by simp, ?_⟩
          intro report told
          cases told
          exact .inr (settled.cached r hit)
  | missed id =>
      cases (about : id = record.id)
      have read : b.ledger.store.get record.id = .ok (some back) :=
        Store.get_eq_some_iff.mpr ⟨record, settled.closed.stored, readable⟩
      rw [Query.step_missed, read]
      refine ⟨?_, by simp⟩
      intro r found
      cases found
      exact .inr rfl
  | found r =>
      refine ⟨by simp [Query.step], ?_⟩
      intro report told
      cases told
      exact .inr (carried r rfl)
  | told report =>
      exact ⟨by simp [Query.step], fun _ told => .inl told⟩

theorem settled_move (readable : Store.read record = .ok back)
    (settled : Settled record back first b) (move : Move b event next) :
    Settled record back first next := by
  have stepping : ∀ {old : Reader}, old ∈ b.readers → old.id = record.id →
      (∀ r, (old.query.step b.ledger).2 = .found r → Final record back r.report) ∧
        ∀ report, (old.query.step b.ledger).2 = .told report →
          old.query = .told report ∨ Final record back report := by
    intro old member named
    have about : old.query.About record.id := named ▸ settled.closed.sound.about old member
    refine settled.query_step readable about ?_
    intro r found
    rw [found] at about
    exact settled.carried old member r found about
  obtain ⟨closed, cached, carried, tells⟩ := settled
  refine ⟨closed_move closed move, ?_, ?_, ?_⟩
  · intro r hit
    rcases closed.cached_move move with same | ⟨_, gone⟩ | ⟨reader, member, found, query, named, put⟩
    · exact cached r (same ▸ hit)
    · rw [gone] at hit
      cases hit
    · rw [put] at hit
      cases hit
      cases before : b.ledger.cache.get? record.id with
      | none => exact carried reader member found query named
      | some old => exact cached old before
  · intro reader member r found named
    obtain ⟨k, standing⟩ := List.mem_iff_getElem?.mp member
    rcases reader_move move standing with same | ⟨id, new⟩ | ⟨old, _, present, stepped⟩
    · exact carried reader (List.mem_of_getElem? same) r found named
    · rw [new] at found
      cases found
    · have about := (sound_move closed.sound move).about reader member
      rw [found, stepped] at about
      rw [stepped] at found
      exact (stepping (List.mem_of_getElem? present) (about.symm.trans named)).1 r found
  · intro k reader report late standing named told
    rcases reader_move move standing with same | ⟨id, new⟩ | ⟨old, _, present, stepped⟩
    · exact tells k reader report late same named told
    · rw [new] at told
      cases told
    · rw [stepped] at named told
      rcases (stepping (List.mem_of_getElem? present) named).2 report told with before | final
      · exact tells k old report late present named before
      · exact final

/-- The cache has the final record, and the readers that come from here on have not gone past it. -/
structure Held (record : Record) (first : Nat) (b : Board) : Prop where
  closed : Closed record b
  cached : b.ledger.cache.get? record.id = some record
  late : ∀ k reader, first ≤ k → b.readers[k]? = some reader → reader.id = record.id →
    reader.query = .asked record.id ∨ reader.query = .told record.report

theorem held_move (held : Held record first b) (kept : event ≠ .forget record.id)
    (move : Move b event next) : Held record first next := by
  obtain ⟨closed, cached, late⟩ := held
  refine ⟨closed_move closed move, ?_, ?_⟩
  · rcases closed.cached_move move with same | ⟨forgot, _⟩ | ⟨_, _, r, _, _, put⟩
    · rw [same, cached]
    · exact absurd forgot kept
    · rw [put, cached, Option.getD_some]
  · intro k reader after standing named
    rcases reader_move move standing with same | ⟨id, new⟩ | ⟨old, _, present, stepped⟩
    · exact late k reader after same named
    · rw [new] at named ⊢
      exact .inl (by rw [← named])
    · rw [stepped] at named ⊢
      right
      rcases late k old after present named with asked | told
      · change (old.query.step b.ledger).2 = _
        rw [asked, Query.step_asked, cached]
      · change (old.query.step b.ledger).2 = _
        rw [told]
        rfl

end Moves

/-- A reader who has found a record gives it to the next one, once the cached record has been taken
out. -/
theorem run?_revival {b : Board} {k : Nat} {reader : Reader} {r : Record}
    (standing : b.readers[k]? = some reader) (found : reader.query = .found r) :
    ∃ after, run? [.forget r.id, .look k, .ask r.id, .look b.readers.length] b = some after ∧
      after.readers[b.readers.length]? = some ⟨r.id, .told r.report⟩ := by
  let cache := (b.ledger.cache.remove r.id).putIfAbsent r
  let readers := b.readers.set k ⟨reader.id, .told r.report⟩
  let asking := readers ++ [⟨r.id, .asked r.id⟩]
  have filled : cache.get? r.id = some r := by
    rw [Cache.get?_putIfAbsent, if_pos rfl, Cache.get?_remove, if_pos rfl, Option.getD_none]
  have count : readers.length = b.readers.length := List.length_set
  have here : asking[b.readers.length]? = some ⟨r.id, .asked r.id⟩ := by
    rw [← count]
    exact List.getElem?_concat_length
  have looked : step? { b with ledger := b.ledger.forget r.id } (.look k) =
      some ⟨⟨b.ledger.store, cache⟩, b.runs, readers⟩ := by
    simp only [step?, standing, Option.bind_eq_bind, Option.bind_some, found]
    rfl
  have told : step? ⟨⟨b.ledger.store, cache⟩, b.runs, asking⟩ (.look b.readers.length) =
      some ⟨⟨b.ledger.store, cache⟩, b.runs,
        asking.set b.readers.length ⟨r.id, .told r.report⟩⟩ := by
    simp only [step?, here, Option.bind_eq_bind, Option.bind_some, Query.step, filled]
    rfl
  obtain ⟨below, _⟩ := List.getElem?_eq_some_iff.mp here
  refine ⟨⟨⟨b.ledger.store, cache⟩, b.runs, asking.set b.readers.length ⟨r.id, .told r.report⟩⟩,
    ?_, List.getElem?_set_self below⟩
  have forgot : b.step? (.forget r.id) = some { b with ledger := b.ledger.forget r.id } := rfl
  have asked : step? ⟨⟨b.ledger.store, cache⟩, b.runs, readers⟩ (.ask r.id) =
      some ⟨⟨b.ledger.store, cache⟩, b.runs, asking⟩ := rfl
  rw [run?, forgot, Option.bind_some, run?, looked, Option.bind_some, run?, asked,
    Option.bind_some, run?, told, Option.bind_some, run?]

/-- After the last checkpoint of a run, everyone who asks for it from then on is told its final report,
in whatever order anything happens, exactly when no reader from before carries an earlier record. As long
as the cached record is not taken out, they are told the report of the final record in any case. -/
theorem later_readers_told_final_iff {history : List Event} {before closing : Board} {i : Nat}
    {now : Instant} {record back : Record} (reached : run? history empty = some before)
    (standing : before.runs[i]? = some ⟨record, .publishing⟩)
    (terminal : record.status.isTerminal = true)
    (published : before.step? (.work i now .published) = some closing)
    (readable : Store.read record = .ok back) :
    back.status = record.status ∧
    ((∀ later after, run? later closing = some after →
        after.Tells closing.readers.length record.id (Final record back)) ↔
      closing.Carries record.id (Final record back)) ∧
    ∀ later after, .forget record.id ∉ later → run? later closing = some after →
      after.Tells closing.readers.length record.id (· = record.report) := by
  obtain ⟨closed, cached, _⟩ :=
    closed_of_published (sound_of_run reached) standing terminal published
  have none_yet : ∀ k, closing.readers.length ≤ k → closing.readers[k]? = none := by
    intro k late
    exact List.getElem?_eq_none late
  refine ⟨by rw [Store.read_eq readable], ⟨?_, ?_⟩, ?_⟩
  · intro always reader member r found named
    -- What a reader carries can be brought back into the cache and told to the next one who asks.
    obtain ⟨k, present⟩ := List.mem_iff_getElem?.mp member
    obtain ⟨after, run, revived⟩ := run?_revival present found
    exact always _ after run _ _ _ le_rfl revived named rfl
  · intro carries later after run
    have start : Settled record back closing.readers.length closing := by
      refine ⟨closed, ?_, carries, ?_⟩
      · intro r hit
        cases cached.symm.trans hit
        exact .inl rfl
      · intro k reader report late present
        rw [none_yet k late] at present
        cases present
    have last := preserves_of_run
      (fun _ _ {_ _} settled move => settled_move readable settled move) start run
    exact last.tells
  · intro later after kept run
    have start : Held record closing.readers.length closing := by
      refine ⟨closed, cached, ?_⟩
      intro k reader late present
      rw [none_yet k late] at present
      cases present
    have last := preserves_of_run (P := Held record closing.readers.length)
      (fun event member {_ _} held move =>
        held_move held (fun same => kept (same ▸ member)) move) start run
    intro k reader report late present named told
    rcases last.late k reader late present named with asked | final
    · exact absurd (asked.symm.trans told) (by simp)
    · exact (Query.told.inj (final.symm.trans told)).symm

/-! ## A run that a reader overtakes -/

/-- A run that has been submitted and has begun. -/
def beginning : List Event :=
  [.submit "r" "report" none (.ofMillis 1), .work 0 (.ofMillis 2) .connected,
    .work 0 (.ofMillis 2) .persisted, .work 0 (.ofMillis 2) .published]

/-- Its end, up to the store. -/
def ending : List Event :=
  [.work 0 (.ofMillis 3) (.finished (.ok (.str "done"))), .work 0 (.ofMillis 3) .persisted]

/-- Its record at the end. -/
def finalRecord : Record :=
  Background.finishedRecord
    ((Record.pending "r" "report" none (.ofMillis 1)).transition .running none (.ofMillis 2))
    (.ok (.str "done")) (.ofMillis 3)

/-- The run is about to put its final record into the cache; a reader has missed the record there. -/
def onTheWay : Board :=
  ⟨⟨⟨[finalRecord], []⟩, .empty⟩, [⟨finalRecord, .publishing⟩], [⟨"r", .missed "r"⟩]⟩

theorem reader_on_the_way_told_final :
    run? (beginning ++ [.forget "r", .ask "r", .look 0] ++ ending) empty = some onTheWay ∧
      ∀ closing, onTheWay.step? (.work 0 (.ofMillis 3) .published) = some closing →
        ∀ later after, run? later closing = some after →
          after.Tells closing.readers.length "r" (Final finalRecord finalRecord) := by
  have reached : run? (beginning ++ [.forget "r", .ask "r", .look 0] ++ ending) empty =
      some onTheWay := rfl
  refine ⟨reached, ?_⟩
  intro closing published
  have told := later_readers_told_final_iff reached (i := 0) rfl rfl published
    (show Store.read finalRecord = .ok finalRecord from rfl)
  refine told.2.1.mpr ?_
  intro reader member r found named
  cases published
  cases List.mem_singleton.mp member
  cases found

/-- The reader found the run running, and fills the cache with that after the final record has been taken
out. -/
theorem later_reader_told_running :
    ¬ ∀ (history later : List Event) (before closing after : Board) (i : Nat) (now : Instant)
        (record : Record), run? history empty = some before →
      before.runs[i]? = some ⟨record, .publishing⟩ → record.status.isTerminal = true →
      before.step? (.work i now .published) = some closing → run? later closing = some after →
      after.Tells closing.readers.length record.id fun report => report.status = record.status := by
  intro always
  have told := always (beginning ++ [.forget "r", .ask "r", .look 0, .look 0] ++ ending)
    [.forget "r", .look 0, .ask "r", .look 1] _ _ _ 0 (.ofMillis 3) finalRecord rfl rfl rfl rfl rfl
  have running : Status.running = .completed := told 1 _ _ le_rfl rfl rfl rfl
  cases running

end Board

end CrewFlow.Execution
