import Mathlib
import CrewFlow.Proofs.Execution.Board
import CrewFlow.Proofs.Service.Course
/-!
# Checkpoints

What is written to the store in the course of some events, and what it says about the board behind them.
Whatever is in the cache, is carried by a reader or has been told to one comes from a checkpoint: it is one,
or what the store reads back of one.
-/
set_option autoImplicit false

namespace CrewFlow.Execution

open Json (Value)
open Service (Consistent Took consistent_running consistent_terminal status_transition took_of_step)
open Time (Instant)

/-! ## Checkpoints -/

namespace Store

variable {r back : Record}

theorem result_of_read (readable : read r = .ok back) : r.result.mapM readValue = .ok back.result := by
  cases parsed : r.result.mapM readValue with
  | error e => simp [read, parsed, bind, Except.bind] at readable
  | ok result =>
      have same := Store.read_eq readable
      simp only [read, parsed, bind, Except.bind] at readable
      split at readable
      · cases readable
      · split at readable
        · cases readable
        · split at readable <;> cases readable
          rfl

theorem isSome_result_of_read (readable : read r = .ok back) :
    back.result.isSome = r.result.isSome := by
  have parsed := result_of_read readable
  cases given : r.result with
  | none =>
      rw [given] at parsed
      have nothing : none = back.result := Except.ok.inj parsed
      rw [← nothing]
  | some v =>
      rw [given, Option.mapM_some] at parsed
      cases value : readValue v with
      | error e => simp [value] at parsed
      | ok w =>
          rw [value] at parsed
          have something : some w = back.result := Except.ok.inj parsed
          rw [← something]
          rfl

end Store

/-- A record that can be a checkpoint: it has a result exactly when its run is over, and it is of a run that
is there. -/
structure Proper (r : Record) : Prop where
  consistent : Consistent r
  known : r.status ≠ .notFound

theorem proper_pending (id name : String) (workflowId : Option String) (now : Instant) :
    Proper (.pending id name workflowId now) :=
  ⟨⟨rfl, rfl⟩, by simp [Record.pending]⟩

theorem Proper.transition_running {r : Record} (proper : Proper r) (unfinished : r.status.isTerminal = false)
    (now : Instant) : Proper (r.transition .running none now) := by
  obtain ⟨result, finished⟩ := proper.consistent
  rw [unfinished, Option.isSome_eq_false_iff, Option.isNone_iff_eq_none] at result finished
  exact ⟨consistent_running ⟨result, finished⟩ now, by simp [status_transition]⟩

theorem proper_transition_terminal (r : Record) (status : Status) (terminal : status.isTerminal = true)
    (v : Value) (now : Instant) : Proper (r.transition status (some v) now) := by
  refine ⟨consistent_terminal r terminal v now, ?_⟩
  rw [status_transition]
  rintro rfl
  cases terminal

theorem proper_finishedRecord (r : Record) (outcome : Except BuildError Value) (now : Instant) :
    Proper (Background.finishedRecord r outcome now) := by
  cases outcome with
  | ok v => exact proper_transition_terminal r .completed rfl v now
  | error e => exact proper_transition_terminal r .failed rfl _ now

theorem Proper.terminal_of_changed {c back : Record} (proper : Proper c) (readable : Store.read c = .ok back)
    (changed : back.report ≠ c.report) : c.status.isTerminal = true := by
  rw [← proper.consistent.1, Option.isSome_iff_ne_none]
  intro none_yet
  have nothing : back.result = none := by
    rw [← Option.not_isSome_iff_eq_none, Store.isSome_result_of_read readable, none_yet]
    simp
  rw [Store.read_eq readable, Record.report, Record.report, nothing, none_yet] at changed
  exact changed rfl

/-- A record comes from a list of checkpoints: it is one of them, or what the store reads back of one. -/
def Backed (written : List Record) (r : Record) : Prop :=
  ∃ c ∈ written, r = c ∨ Store.read c = .ok r

theorem Backed.mono {written : List Record} {r : Record} (backed : Backed written r) (more : List Record) :
    Backed (written ++ more) r := by
  obtain ⟨c, member, same⟩ := backed
  exact ⟨c, List.mem_append_left _ member, same⟩

/-- A record that comes from a checkpoint is one of the same run and status, and has a result when the
checkpoint has one. -/
theorem Backed.exists_checkpoint {written : List Record} {r : Record} (backed : Backed written r) :
    ∃ c ∈ written, r.id = c.id ∧ r.status = c.status ∧ r.result.isSome = c.result.isSome ∧
      (r = c ∨ Store.read c = .ok r) := by
  obtain ⟨c, member, rfl | readable⟩ := backed
  · exact ⟨r, member, rfl, rfl, rfl, .inl rfl⟩
  · have kept := Store.read_eq readable
    exact ⟨c, member, by rw [kept], by rw [kept], Store.isSome_result_of_read readable, .inr readable⟩

/-- Where a run stands among the checkpoints: what it puts into the cache has been written, and a checkpoint
of its end is its last. -/
structure Stands (written : List Record) (run : Background) : Prop where
  proper : Proper run.record
  unfinished : run.phase = .opening ∨ run.phase = .working → run.record.status.isTerminal = false
  noted : run.phase = .publishing → run.record ∈ written
  last : ∀ c ∈ written, c.id = run.record.id → c.status.isTerminal = true →
    c = run.record ∧ (run.phase = .publishing ∨ run.phase = .ended)

section Stands
variable {written : List Record} {run after : Background} {l ledger : Ledger} {now : Instant}
  {happening : Happening}

/-- The record that a happening of a run writes to the store. -/
def Background.write? (run : Background) : Happening → Option Record
  | .persisted => some run.record
  | _ => none

theorem Stands.of_others (stands : Stands written run) {more : List Record}
    (others : ∀ c ∈ more, c.id ≠ run.record.id) : Stands (written ++ more) run where
  proper := stands.proper
  unfinished := stands.unfinished
  noted publishing := List.mem_append_left _ (stands.noted publishing)
  last c member same := by
    rcases List.mem_append.mp member with old | new
    · exact stands.last c old same
    · exact absurd same (others c new)

theorem Stands.none_last (stands : Stands written run) (publishing : run.phase ≠ .publishing)
    (ended : run.phase ≠ .ended) {c : Record} (member : c ∈ written) (same : c.id = run.record.id) :
    c.status.isTerminal ≠ true := by
  intro terminal
  rcases (stands.last c member same terminal).2 with phase | phase
  · exact publishing phase
  · exact ended phase

theorem Stands.changed (stands : Stands written run) (settled : run.phase = .opening ∨ run.phase = .working)
    {r : Record} (proper : Proper r) (same : r.id = run.record.id) : Stands written ⟨r, .persisting⟩ where
  proper := proper
  unfinished phase := by simp at phase
  noted phase := by simp at phase
  last c member named terminal := by
    have publishing : run.phase ≠ .publishing := by rcases settled with h | h <;> simp [h]
    have ended : run.phase ≠ .ended := by rcases settled with h | h <;> simp [h]
    exact absurd terminal (stands.none_last publishing ended member (named.trans same))

theorem Stands.took (stands : Stands written run) (took : Took l run now happening ledger after) :
    Stands (written ++ (run.write? happening).toList) after := by
  have silent : written ++ [] = written := List.append_nil written
  cases took with
  | connected phase =>
      have proper := stands.proper.transition_running (stands.unfinished (.inl phase)) now
      exact silent.symm ▸ stands.changed (.inl phase) proper (Record.id_transition ..)
  | @refused cause phase =>
      have proper := proper_transition_terminal run.record .failed rfl
        (.str (Background.refusalText cause)) now
      exact silent.symm ▸ stands.changed (.inl phase) proper (Record.id_transition ..)
  | @finished result phase =>
      have named : (Background.finishedRecord run.record result now).id = run.record.id := by
        cases result <;> exact Record.id_transition ..
      exact silent.symm ▸ stands.changed (.inr phase) (proper_finishedRecord ..) named
  | persisted phase =>
      -- No checkpoint of its end is there yet, so the one that is written now is the only one.
      refine ⟨stands.proper, by simp, fun _ => List.mem_append_right _ List.mem_cons_self, ?_⟩
      intro c member same terminal
      rcases List.mem_append.mp member with old | new
      · exact absurd terminal (stands.none_last (by simp [phase]) (by simp [phase]) old same)
      · exact ⟨List.mem_singleton.mp new, .inl rfl⟩
  | published phase =>
      refine silent.symm ▸ ⟨stands.proper, ?_, ?_, ?_⟩
      · intro goesOn
        by_contra terminal
        rw [Bool.not_eq_false] at terminal
        simp [Background.afterPublishing, terminal] at goesOn
      · intro publishing
        unfold Background.afterPublishing at publishing
        split at publishing <;> cases publishing
      · intro c member same terminal
        obtain ⟨own, _⟩ := stands.last c member same terminal
        rw [own] at terminal
        exact ⟨own, .inr (if_pos terminal)⟩

end Stands

/-! ## Queries -/

theorem Cache.id_of_get? {c : Cache} {id : String} {r : Record} (found : c.get? id = some r) : r.id = id := by
  have same := List.find?_some found
  simpa using same

theorem Query.cached_step {l : Ledger} {q : Query} {id : String} {r : Record}
    (cached : (q.step l).1.cache.get? id = some r) : l.cache.get? id = some r ∨ q = .found r := by
  by_cases finding : ∃ found, q = .found found
  · obtain ⟨found, rfl⟩ := finding
    have filled : (l.cache.putIfAbsent found).get? id = some r := cached
    rw [Cache.get?_putIfAbsent] at filled
    split at filled
    · next same =>
        cases present : l.cache.get? found.id with
        | none =>
            rw [present, Option.getD_none] at filled
            exact .inr (congrArg Query.found (Option.some.inj filled))
        | some old =>
            rw [present, Option.getD_some] at filled
            exact .inl (same ▸ present.trans filled)
    · exact .inl filled
  · rw [Query.cache_step fun found same => finding ⟨found, same⟩] at cached
    exact .inl cached

namespace Board

/-! ## What is written -/

/-- The record that an event writes to the store. -/
def write? (b : Board) : Event → Option Record
  | .submit id name workflowId now => some (.pending id name workflowId now)
  | .work i _ happening => b.runs[i]?.bind fun run => run.write? happening
  | _ => none

/-- The checkpoints that are written in the course of some events. -/
def checkpoints : List Event → Board → List Record
  | [], _ => []
  | event :: events, b =>
    (b.write? event).toList ++ (b.step? event).elim [] (checkpoints events)

theorem checkpoints_append (events rest : List Event) (b : Board) :
    checkpoints (events ++ rest) b = checkpoints events b ++ (run? events b).elim [] (checkpoints rest) := by
  induction events generalizing b with
  | nil => rfl
  | cons event events ih =>
      rw [List.cons_append, checkpoints, checkpoints, run?, List.append_assoc]
      cases b.step? event with
      | none => rfl
      | some next => exact congrArg _ (ih next)

/-- What is kept from event to event, of the checkpoints written so far, the events still to come and the
board, is kept to the end. -/
theorem preserves_of_writes {P : List Record → List Event → Board → Prop}
    (keeps : ∀ {written : List Record} {event : Event} {rest : List Event} {b next : Board},
      P written (event :: rest) b → b.step? event = some next →
        P (written ++ (b.write? event).toList) rest next)
    {events : List Event} {b last : Board} {written : List Record} (start : P written events b)
    (run : run? events b = some last) : P (written ++ checkpoints events b) [] last := by
  induction events generalizing b written with
  | nil =>
      cases run
      simpa [checkpoints] using start
  | cons event events ih =>
      obtain ⟨next, step, rest⟩ := Option.bind_eq_some_iff.mp run
      rw [checkpoints, step, Option.elim_some, ← List.append_assoc]
      exact ih (keeps start step) rest

/-- What is known of every board and of the checkpoints that have been written on it. -/
structure Recorded (written : List Record) (b : Board) : Prop where
  sound : b.Sound
  proper : ∀ c ∈ written, Proper c
  owned : ∀ c ∈ written, c.id ∈ b.runs.map fun run => run.record.id
  runs : ∀ run ∈ b.runs, Stands written run
  stored : ∀ id r, b.ledger.store.record? id = some r → r ∈ written
  cached : ∀ id r, b.ledger.cache.get? id = some r → Backed written r
  carried : ∀ reader ∈ b.readers, ∀ r, reader.query = .found r → Backed written r
  told : ∀ reader ∈ b.readers, ∀ report, reader.query = .told report →
    report = .unknown ∨ ∃ r, Backed written r ∧ r.id = reader.id ∧ report = r.report

theorem recorded_empty : Recorded [] empty where
  sound := sound_empty
  proper := by simp
  owned := by simp
  runs := by simp [empty]
  stored := by simp [empty, Ledger.empty]
  cached := by simp [empty, Ledger.empty]
  carried := by simp [empty]
  told := by simp [empty]

section Steps
variable {written : List Record} {b next : Board}

/-- What a reader comes by in the next step of its query is from a checkpoint, unless it is told that there
is no run. -/
theorem Recorded.query_step (recorded : Recorded written b) {reader : Reader} (member : reader ∈ b.readers) :
    (∀ r, (reader.query.step b.ledger).2 = .found r → Backed written r) ∧
      ∀ report, (reader.query.step b.ledger).2 = .told report →
        report = .unknown ∨ ∃ r, Backed written r ∧ r.id = reader.id ∧ report = r.report := by
  have about := recorded.sound.about reader member
  cases state : reader.query with
  | asked id =>
      rw [state] at about
      rw [Query.step_asked]
      cases hit : b.ledger.cache.get? id with
      | none => simp
      | some r =>
          refine ⟨by simp, fun report told => .inr ⟨r, recorded.cached id r hit, ?_, ?_⟩⟩
          · exact (Cache.id_of_get? hit).trans about
          · cases told
            rfl
  | missed id =>
      rw [Query.step_missed]
      split
      · next back read =>
          obtain ⟨r, stored, readable⟩ := Store.get_eq_some_iff.mp read
          refine ⟨fun found same => ?_, by simp⟩
          cases same
          exact ⟨r, recorded.stored id r stored, .inr readable⟩
      · refine ⟨by simp, fun report told => ?_⟩
        cases told
        exact .inl rfl
  | found r =>
      rw [state] at about
      refine ⟨by simp [Query.step], fun report told => ?_⟩
      cases told
      exact .inr ⟨r, recorded.carried reader member r state, about, rfl⟩
  | told report =>
      refine ⟨by simp [Query.step], fun other told => ?_⟩
      cases told
      exact recorded.told reader member report state

theorem Recorded.looked (recorded : Recorded written b) {k : Nat} {reader : Reader}
    (standing : b.readers[k]? = some reader) :
    Recorded written
      { b with
        ledger := (reader.query.step b.ledger).1
        readers := b.readers.set k ⟨reader.id, (reader.query.step b.ledger).2⟩ } := by
  have member := List.mem_of_getElem? standing
  obtain ⟨finds, tells⟩ := recorded.query_step member
  refine ⟨sound_move recorded.sound (.looked standing), recorded.proper, recorded.owned, recorded.runs,
    ?stored, ?cached, ?carried, ?told⟩
  case stored =>
    intro id r stored
    rw [Query.store_step] at stored
    exact recorded.stored id r stored
  case cached =>
    intro id r hit
    rcases Query.cached_step hit with before | found
    · exact recorded.cached id r before
    · exact recorded.carried reader member r found
  case carried =>
    intro other present
    rcases List.mem_or_eq_of_mem_set present with old | rfl
    · exact recorded.carried other old
    · exact finds
  case told =>
    intro other present
    rcases List.mem_or_eq_of_mem_set present with old | rfl
    · exact recorded.told other old
    · exact tells

theorem Recorded.asked (recorded : Recorded written b) (id : String) :
    Recorded written { b with readers := b.readers ++ [⟨id, .asked id⟩] } := by
  refine ⟨sound_move recorded.sound (.asked id), recorded.proper, recorded.owned, recorded.runs,
    recorded.stored, recorded.cached, ?carried, ?told⟩
  case carried =>
    intro reader member r found
    rcases List.mem_append.mp member with old | new
    · exact recorded.carried reader old r found
    · cases List.mem_singleton.mp new
      cases found
  case told =>
    intro reader member report told
    rcases List.mem_append.mp member with old | new
    · exact recorded.told reader old report told
    · cases List.mem_singleton.mp new
      cases told

theorem Recorded.forgot (recorded : Recorded written b) (id : String) :
    Recorded written { b with ledger := b.ledger.forget id } := by
  refine ⟨sound_move recorded.sound (.forgot id), recorded.proper, recorded.owned, recorded.runs,
    recorded.stored, ?cached, recorded.carried, recorded.told⟩
  case cached =>
    intro other r hit
    have lookup : (b.ledger.cache.remove id).get? other = some r := hit
    rw [Cache.get?_remove] at lookup
    split at lookup
    · cases lookup
    · exact recorded.cached other r lookup

theorem Recorded.readers_mono (recorded : Recorded written b) (more : List Record) :
    (∀ reader ∈ b.readers, ∀ r, reader.query = .found r → Backed (written ++ more) r) ∧
      ∀ reader ∈ b.readers, ∀ report, reader.query = .told report →
        report = .unknown ∨ ∃ r, Backed (written ++ more) r ∧ r.id = reader.id ∧ report = r.report := by
  refine ⟨fun reader member r found => (recorded.carried reader member r found).mono more, ?_⟩
  intro reader member report told
  rcases recorded.told reader member report told with nothing | ⟨r, backed, named, same⟩
  · exact .inl nothing
  · exact .inr ⟨r, backed.mono more, named, same⟩

theorem Recorded.submitted (recorded : Recorded written b) {r : Record} {store : Store} (proper : Proper r)
    (pending : r.status.isTerminal = false) (inserted : b.ledger.store.insert r = .ok store)
    (sound : Board.Sound { b with ledger := ⟨store, b.ledger.cache.put r⟩, runs := b.runs ++ [.start r] }) :
    Recorded (written ++ [r])
      { b with ledger := ⟨store, b.ledger.cache.put r⟩, runs := b.runs ++ [.start r] } := by
  have isNew : r ∈ written ++ [r] := List.mem_append_right _ List.mem_cons_self
  have fresh : ∀ run ∈ b.runs, run.record.id ≠ r.id := by
    have distinct := sound.distinct
    rw [List.map_append, List.nodup_append] at distinct
    intro run member
    exact distinct.2.2 _ (List.mem_map_of_mem member) _ List.mem_cons_self
  obtain ⟨carried, told⟩ := recorded.readers_mono [r]
  refine ⟨sound, ?proper, ?owned, ?runs, ?stored, ?cached, carried, told⟩
  case proper =>
    intro c member
    rcases List.mem_append.mp member with old | new
    · exact recorded.proper c old
    · rw [List.mem_singleton.mp new]
      exact proper
  case owned =>
    intro c member
    rw [List.map_append, List.mem_append]
    rcases List.mem_append.mp member with old | new
    · exact .inl (recorded.owned c old)
    · rw [List.mem_singleton.mp new]
      exact .inr List.mem_cons_self
  case runs =>
    intro run member
    rcases List.mem_append.mp member with old | new
    · refine (recorded.runs run old).of_others fun c added => ?_
      rw [List.mem_singleton.mp added]
      exact (fresh run old).symm
    · rw [List.mem_singleton.mp new]
      refine ⟨proper, fun _ => pending, nofun, ?_⟩
      intro c added same terminal
      rcases List.mem_append.mp added with old | own
      · obtain ⟨run, present, named⟩ := List.mem_map.mp (recorded.owned c old)
        exact absurd (named.trans same) (fresh run present)
      · rw [List.mem_singleton.mp own, pending] at terminal
        cases terminal
  case stored =>
    intro id c stored
    have lookup := Store.record?_insert inserted id
    rw [show store.record? id = some c from stored] at lookup
    split at lookup
    · exact Option.some.inj lookup ▸ isNew
    · exact List.mem_append_left _ (recorded.stored id c lookup.symm)
  case cached =>
    intro id c hit
    have lookup : (b.ledger.cache.put r).get? id = some c := hit
    rw [Cache.get?_put] at lookup
    split at lookup
    · exact ⟨r, isNew, .inl (Option.some.inj lookup).symm⟩
    · exact (recorded.cached id c lookup).mono [r]

/-- Only the first half of a checkpoint changes what is stored of an id. -/
theorem Recorded.stored_took (recorded : Recorded written b) {run after : Background} {now : Instant}
    {happening : Happening} {ledger : Ledger} (member : run ∈ b.runs)
    (took : Took b.ledger run now happening ledger after) :
    ∀ id c, ledger.store.record? id = some c → c ∈ written ++ (run.write? happening).toList := by
  obtain ⟨r, known, same, _⟩ := recorded.sound.kept run member
  intro id c stored
  cases took with
  | persisted phase =>
      have lookup := Ledger.record?_persist known same id
      rw [stored] at lookup
      split at lookup
      · rw [Option.some.inj lookup]
        exact List.mem_append_right _ List.mem_cons_self
      · exact List.mem_append_left _ (recorded.stored id c lookup.symm)
  | _ => exact List.mem_append_left _ (recorded.stored id c stored)

/-- Only the second half of a checkpoint changes the cache. -/
theorem Recorded.cached_took (recorded : Recorded written b) {run after : Background} {now : Instant}
    {happening : Happening} {ledger : Ledger} (member : run ∈ b.runs)
    (took : Took b.ledger run now happening ledger after) :
    ∀ id c, ledger.cache.get? id = some c → Backed (written ++ (run.write? happening).toList) c := by
  intro id c hit
  cases took with
  | persisted phase =>
      rw [Ledger.cache_persist] at hit
      exact (recorded.cached id c hit).mono _
  | published phase =>
      have lookup : (b.ledger.cache.put run.record).get? id = some c := hit
      rw [Cache.get?_put] at lookup
      split at lookup
      · have noted := (recorded.runs run member).noted phase
        exact ⟨run.record, List.mem_append_left _ noted, .inl (Option.some.inj lookup).symm⟩
      · exact (recorded.cached id c lookup).mono _
  | _ => exact (recorded.cached id c hit).mono _

theorem Recorded.worked (recorded : Recorded written b) {i : Nat} {run after : Background} {now : Instant}
    {happening : Happening} {ledger : Ledger} (standing : b.runs[i]? = some run)
    (step : run.step b.ledger now happening = some (ledger, after)) :
    Recorded (written ++ (run.write? happening).toList) { b with ledger, runs := b.runs.set i after } := by
  have member := List.mem_of_getElem? standing
  have stands := recorded.runs run member
  have stepped := Background.stepped_of_step step
  have took := took_of_step step
  have own : ∀ c ∈ (run.write? happening).toList, c = run.record := by
    cases happening <;> simp [Background.write?]
  obtain ⟨carried, told⟩ := recorded.readers_mono (run.write? happening).toList
  have move : Move b (.work i now happening) { b with ledger, runs := b.runs.set i after } :=
    .worked standing stepped
  refine ⟨sound_move recorded.sound move, ?proper, ?owned, ?runs, recorded.stored_took member took,
    recorded.cached_took member took, carried, told⟩
  case proper =>
    intro c added
    rcases List.mem_append.mp added with old | new
    · exact recorded.proper c old
    · rw [own c new]
      exact stands.proper
  case owned =>
    intro c added
    have names : (b.runs.set i after).map (fun run => run.record.id) =
        b.runs.map fun run => run.record.id := map_set_of_eq standing (Record.id_of_origin stepped.origin)
    rw [names]
    rcases List.mem_append.mp added with old | new
    · exact recorded.owned c old
    · rw [own c new]
      exact List.mem_map_of_mem member
  case runs =>
    intro other present
    rcases recorded.sound.mem_set_runs standing present with rfl | ⟨old, different⟩
    · exact stands.took took
    · refine (recorded.runs other old).of_others fun c added => ?_
      rw [own c added]
      exact different.symm

theorem recorded_step (recorded : Recorded written b) {event : Event} (step : b.step? event = some next) :
    Recorded (written ++ (b.write? event).toList) next := by
  have sound : next.Sound := sound_move recorded.sound (move_of_step step)
  cases event with
  | submit id name workflowId now =>
      simp only [step?] at step
      split at step
      · next ledger accepted =>
          obtain ⟨store, inserted, same⟩ := Ledger.submitted accepted
          cases step
          subst same
          exact recorded.submitted (proper_pending id name workflowId now) rfl inserted sound
      · cases step
  | work i now happening =>
      obtain ⟨run, standing, step⟩ := Option.bind_eq_some_iff.mp step
      obtain ⟨⟨ledger, after⟩, stepped, step⟩ := Option.bind_eq_some_iff.mp step
      cases step
      rw [write?, standing, Option.bind_some]
      exact recorded.worked standing stepped
  | ask id =>
      cases step
      exact (List.append_nil written).symm ▸ recorded.asked id
  | look k =>
      obtain ⟨reader, standing, step⟩ := Option.bind_eq_some_iff.mp step
      cases step
      exact (List.append_nil written).symm ▸ recorded.looked standing
  | forget id =>
      cases step
      exact (List.append_nil written).symm ▸ recorded.forgot id

theorem recorded_of_run {events : List Event} {last : Board} (recorded : Recorded written b)
    (run : run? events b = some last) : Recorded (written ++ checkpoints events b) last :=
  preserves_of_writes (P := fun written _ b => Recorded written b)
    (fun recorded step => recorded_step recorded step) recorded run

theorem submitted_of_run {history : List Event} (reached : run? history empty = some b) :
    ∀ run ∈ b.runs, ∃ name workflowId now, .submit run.record.id name workflowId now ∈ history := by
  refine preserves_of_run (P := fun b => ∀ run ∈ b.runs, ∃ name workflowId now,
    .submit run.record.id name workflowId now ∈ history) (fun event occurs {b next} known move => ?_)
    (by simp [empty]) reached
  cases move with
  | @submitted id name workflowId now store inserted =>
      intro run member
      rcases List.mem_append.mp member with old | new
      · exact known run old
      · cases List.mem_singleton.mp new
        exact ⟨name, workflowId, now, occurs⟩
  | @worked i now happening run after ledger standing step =>
      intro other member
      rcases List.mem_or_eq_of_mem_set member with old | rfl
      · exact known other old
      · rw [Record.id_of_origin step.origin]
        exact known run (List.mem_of_getElem? standing)
  | _ => exact known

end Steps

end Board

end CrewFlow.Execution
