import Mathlib
import CrewFlow.Proofs.Execution.Checkpoints
import CrewFlow.Proofs.Execution.Finished
/-!
# Reports of checkpoints

Whoever asks for the status of a run is told of a checkpoint of that run which has been written before, and
who asks for a run that nobody has submitted is told that there is none. The cache gives a checkpoint as it
was written. The store gives what it reads back from a text, so a result that its text does not keep is told
in another form as soon as the record has been taken out of the cache.
-/
set_option autoImplicit false

namespace CrewFlow.Execution

open Json (Value)
open Time (Instant)

namespace Board

/-- The store answers whoever takes a step in an event and asks it. -/
def Answers (b : Board) (event : Event) : Prop :=
  ∀ k reader id, event = .look k → b.readers[k]? = some reader → reader.query = .missed id →
    ∃ found, b.ledger.store.get id = .ok found

/-- The store answers in the course of some events. -/
def Served : List Event → Board → Prop
  | [], _ => True
  | event :: events, b => b.Answers event ∧ ∀ next, b.step? event = some next → Served events next

section Steps
variable {written : List Record} {b next : Board}

theorem Recorded.served {events : List Event} (recorded : Recorded written b)
    (readable : ∀ c ∈ written ++ checkpoints events b, ∃ back, Store.read c = .ok back) : Served events b := by
  induction events generalizing b written with
  | nil => trivial
  | cons event events ih =>
      refine ⟨fun k reader id _ _ _ => ?_, fun next step => ?_⟩
      · cases stored : b.ledger.store.record? id with
        | none => exact ⟨none, by rw [Store.get, stored]⟩
        | some r =>
            have member := List.mem_append_left (checkpoints (event :: events) b) (recorded.stored id r stored)
            obtain ⟨back, given⟩ := readable r member
            exact ⟨some back, Store.get_eq_some_iff.mpr ⟨r, stored, given⟩⟩
      · rw [checkpoints, step, Option.elim_some, ← List.append_assoc] at readable
        exact ih (recorded_step recorded step) readable

/-! ## Runs that nobody has submitted -/

theorem Recorded.mem_ids_of_backed (recorded : Recorded written b) {r : Record} (backed : Backed written r) :
    r.id ∈ b.runs.map fun run => run.record.id := by
  obtain ⟨c, member, same, _⟩ := backed.exists_checkpoint
  rw [same]
  exact recorded.owned c member

theorem Recorded.unknown (recorded : Recorded written b) {id : String}
    (absent : id ∉ b.runs.map fun run => run.record.id) :
    b.ledger.status id = (b.ledger, .unknown) ∧
      ∀ reader ∈ b.readers, reader.id = id → (reader.query.step b.ledger).1 = b.ledger ∧
        ∀ report, reader.query = .told report → report = .unknown := by
  have unstored : b.ledger.store.record? id = none := by
    by_contra present
    obtain ⟨r, stored⟩ := Option.ne_none_iff_exists'.mp present
    exact absent (Store.id_of_record? stored ▸ recorded.owned r (recorded.stored id r stored))
  have uncached : b.ledger.cache.get? id = none := by
    by_contra present
    obtain ⟨r, hit⟩ := Option.ne_none_iff_exists'.mp present
    exact absent (Cache.id_of_get? hit ▸ recorded.mem_ids_of_backed (recorded.cached id r hit))
  refine ⟨?_, fun reader member named => ⟨?_, fun report told => ?_⟩⟩
  · have unread : b.ledger.store.get id = .ok none := by rw [Store.get, unstored]
    simp [Ledger.status, Query.finish, Query.step, uncached, unread]
  · have unfound : ∀ r, reader.query ≠ .found r := by
      intro r found
      have about := recorded.sound.about reader member
      rw [found] at about
      have own : r.id = id := Eq.trans about named
      exact absent (own ▸ recorded.mem_ids_of_backed (recorded.carried reader member r found))
    calc (reader.query.step b.ledger).1
        = ⟨(reader.query.step b.ledger).1.store, (reader.query.step b.ledger).1.cache⟩ := rfl
      _ = b.ledger := by rw [Query.store_step, Query.cache_step unfound]
  · rcases recorded.told reader member report told with nothing | ⟨r, backed, own, _⟩
    · exact nothing
    · exact absurd (own.trans named ▸ recorded.mem_ids_of_backed backed) absent

/-! ## Runs that have been submitted -/

theorem Tells.step {first : Nat} {id : String} {right : StatusReport → Prop} (tells : b.Tells first id right)
    {event : Event} (move : Move b event next)
    (steps : ∀ k reader report, event = .look k → b.readers[k]? = some reader → reader.id = id →
      (reader.query.step b.ledger).2 = .told report → reader.query = .told report ∨ right report) :
    next.Tells first id right := by
  intro k reader report late standing named told
  rcases reader_move move standing with same | ⟨other, new⟩ | ⟨old, looks, present, stepped⟩
  · exact tells k reader report late same named told
  · rw [new] at told
    cases told
  · rw [stepped] at named told
    rcases steps k old report looks present named told with before | now
    · exact tells k old report late present named before
    · exact now

theorem ids_step {event : Event} (move : Move b event next) :
    (b.runs.map fun run => run.record.id) ⊆ next.runs.map fun run => run.record.id := by
  cases move with
  | submitted inserted =>
      rw [List.map_append]
      exact List.subset_append_left _ _
  | worked standing step =>
      rw [map_set_of_eq (f := fun run : Background => run.record.id) standing
        (Record.id_of_origin step.origin)]
      exact List.Subset.refl _
  | _ => exact List.Subset.refl _

theorem Recorded.known_step (recorded : Recorded written b) {k : Nat} {reader : Reader}
    (standing : b.readers[k]? = some reader) (present : reader.id ∈ b.runs.map fun run => run.record.id)
    (answers : b.Answers (.look k)) {report : StatusReport}
    (told : (reader.query.step b.ledger).2 = .told report) :
    reader.query = .told report ∨ report.status ≠ .notFound := by
  have member := List.mem_of_getElem? standing
  have known : ∀ r, Backed written r → r.report.status ≠ .notFound := by
    intro r backed
    obtain ⟨c, checkpoint, _, same, _⟩ := backed.exists_checkpoint
    rw [Record.report, same]
    exact (recorded.proper c checkpoint).known
  cases state : reader.query with
  | asked id =>
      rw [state, Query.step_asked] at told
      cases hit : b.ledger.cache.get? id with
      | none => simp [hit] at told
      | some r =>
          rw [hit] at told
          cases told
          exact .inr (known r (recorded.cached id r hit))
  | missed id =>
      obtain rfl : id = reader.id := by
        have about := recorded.sound.about reader member
        rw [state] at about
        exact about
      obtain ⟨run, isRun, named⟩ := List.mem_map.mp present
      obtain ⟨r, stored, _⟩ := recorded.sound.kept run isRun
      obtain ⟨found, read⟩ := answers k reader reader.id rfl standing state
      have stored : b.ledger.store.record? reader.id = some r := named ▸ stored
      rw [state, Query.step_missed, read] at told
      cases found with
      | some back => cases told
      | none =>
          rw [Store.get, stored] at read
          cases back : Store.read r <;> simp [back, Except.map] at read
  | found r =>
      rw [state] at told
      cases told
      exact .inr (known r (recorded.carried reader member r state))
  | told before =>
      rw [state] at told
      cases told
      exact .inl rfl

theorem known_of_run {first : Nat} {id : String} {events : List Event} {last : Board}
    (recorded : Recorded written b) (present : id ∈ b.runs.map fun run => run.record.id)
    (tells : b.Tells first id (·.status ≠ .notFound)) (served : Served events b)
    (run : run? events b = some last) : last.Tells first id (·.status ≠ .notFound) := by
  -- Kept besides: the run stays there, and the store goes on answering for what is still to come.
  let kept : List Record → List Event → Board → Prop := fun written rest b =>
    Recorded written b ∧ (id ∈ b.runs.map fun run => run.record.id) ∧
      b.Tells first id (·.status ≠ .notFound) ∧ Served rest b
  have final : kept (written ++ checkpoints events b) [] last := by
    refine preserves_of_writes ?_ ⟨recorded, present, tells, served⟩ run
    rintro written event rest b next ⟨recorded, present, tells, answers, later⟩ step
    have move := move_of_step step
    refine ⟨recorded_step recorded step, ids_step move present, tells.step move ?_, later next step⟩
    intro k reader report looks standing named told
    subst looks
    exact recorded.known_step standing (named ▸ present) answers told
  exact final.2.2.1

/-- Somebody asks for a run whose record has been taken out of the cache. -/
def rereading (id : String) (k : Nat) : List Event := [.forget id, .ask id, .look k, .look k, .look k]

theorem checkpoints_rereading (id : String) (k : Nat) : checkpoints (rereading id k) b = [] := by
  have look : ∀ (events : List Event) (b : Board), (∀ b, checkpoints events b = []) →
      checkpoints (.look k :: events) b = [] := by
    intro events b silent
    rw [checkpoints, show b.write? (.look k) = none from rfl, funext silent]
    cases b.step? (.look k) <;> rfl
  exact look _ _ (fun _ => look _ _ (fun _ => look _ _ (fun _ => rfl)))

/-- Who asks for a run once its record has been taken out of the cache is told what the store gives back. -/
theorem run?_rereading {id : String} {c back : Record} (stored : b.ledger.store.record? id = some c)
    (readable : Store.read c = .ok back) :
    ∃ last, run? (rereading id b.readers.length) b = some last ∧
      last.readers[b.readers.length]? = some ⟨id, .told back.report⟩ := by
  have look : ∀ (l : Ledger) (q : Query) (events : List Event),
      run? (.look b.readers.length :: events) ⟨l, b.runs, b.readers ++ [⟨id, q⟩]⟩ =
        run? events ⟨(q.step l).1, b.runs, b.readers ++ [⟨id, (q.step l).2⟩]⟩ := by
    intro l q events
    have here : (b.readers ++ [⟨id, q⟩])[b.readers.length]? = some ⟨id, q⟩ := List.getElem?_concat_length
    simp [run?, step?]
  have missed : (Query.asked id).step (b.ledger.forget id) = (b.ledger.forget id, .missed id) := by
    have uncached : (b.ledger.cache.remove id).get? id = none := (Cache.get?_remove id).trans (if_pos rfl)
    simp [Query.step, Ledger.forget, uncached]
  have found : (Query.missed id).step (b.ledger.forget id) = (b.ledger.forget id, .found back) := by
    have read : b.ledger.store.get id = .ok (some back) := Store.get_eq_some_iff.mpr ⟨c, stored, readable⟩
    simp [Query.step, Ledger.forget, read]
  let told := (Query.found back).step (b.ledger.forget id)
  refine ⟨⟨told.1, b.runs, b.readers ++ [⟨id, told.2⟩]⟩, ?_, List.getElem?_concat_length⟩
  rw [rereading, run?, step?, Option.bind_some, run?, step?, Option.bind_some, look, missed, look, found,
    look, run?]

end Steps

/-! ## What is told of runs -/

/-- A report of a checkpoint: of its status, and with its result as it stands or as the store gives it
back. -/
structure Reports (c : Record) (report : StatusReport) : Prop where
  status : report.status = c.status
  known : report.status ≠ .notFound
  result : report.result.isSome = report.status.isTerminal
  form : report = c.report ∨ ∃ back, Store.read c = .ok back ∧ report = back.report

/-- A checkpoint that is read back, if at all, with the result that it has. -/
def Survives (c : Record) : Prop := ∀ back, Store.read c = .ok back → back.report = c.report

section Submitted
variable {before after : List Record} {b : Board} {id : String}

theorem Recorded.reports_of_backed (recorded : Recorded (before ++ after) b)
    (unused : ∀ c ∈ before, c.id ≠ id) {r : Record} (backed : Backed (before ++ after) r) (own : r.id = id) :
    ∃ c ∈ after, c.id = id ∧ Reports c r.report := by
  obtain ⟨c, member, same, status, result, form⟩ := backed.exists_checkpoint
  have named : c.id = id := same.symm.trans own
  have later : c ∈ after := by
    rcases List.mem_append.mp member with old | new
    · exact absurd named (unused c old)
    · exact new
  have proper := recorded.proper c member
  refine ⟨c, later, named, status, ?_, ?_, ?_⟩
  · rw [Record.report, status]
    exact proper.known
  · rw [Record.report, result, status]
    exact proper.consistent.1
  · rcases form with rfl | readable
    · exact .inl rfl
    · exact .inr ⟨r, readable, rfl⟩

/-- What the store gives back of a record, when it is not what the record says, is not what any other
checkpoint of the run says. -/
theorem Recorded.lost (recorded : Recorded (before ++ after) b) {c back : Record}
    (stored : b.ledger.store.record? id = some c) (readable : Store.read c = .ok back)
    (changed : back.report ≠ c.report) : ∀ r ∈ after, r.id = id → back.report ≠ r.report := by
  intro r later named same
  have checkpoint := recorded.stored id c stored
  have own : c.id = id := Store.id_of_record? stored
  have terminal := (recorded.proper c checkpoint).terminal_of_changed readable changed
  have status : r.status = c.status := by
    have told : back.status = r.status := congrArg StatusReport.status same
    rw [Store.read_eq readable] at told
    exact told.symm
  -- A run has one checkpoint of its end.
  have member : r ∈ before ++ after := List.mem_append_right _ later
  obtain ⟨run, isRun, is⟩ := List.mem_map.mp (recorded.owned c checkpoint)
  have stands := recorded.runs run isRun
  obtain ⟨last, _⟩ := stands.last c checkpoint is.symm terminal
  obtain ⟨final, _⟩ := stands.last r member (named.trans (own.symm.trans is.symm)) (status ▸ terminal)
  rw [last, ← final] at changed
  exact changed same

theorem Recorded.unused (recorded : Recorded before b) {name : String} {workflowId : Option String}
    {now : Instant} {submitted : Board}
    (accepted : b.step? (.submit id name workflowId now) = some submitted) :
    (∀ c ∈ before, c.id ≠ id) ∧ (id ∈ submitted.runs.map fun run => run.record.id) ∧
      submitted.readers = b.readers := by
  cases move_of_step accepted with
  | submitted inserted =>
      refine ⟨fun c member named => ?_, ?_, rfl⟩
      · obtain ⟨run, isRun, same⟩ := List.mem_map.mp (recorded.owned c member)
        obtain ⟨r, stored, _⟩ := recorded.sound.kept run isRun
        rw [same.trans named] at stored
        cases stored.symm.trans (Store.record?_of_insert inserted)
      · rw [List.map_append]
        exact List.mem_append_right _ List.mem_cons_self

end Submitted

/-- At any time, whatever runs, readers and removals from the cache have done and in whatever order: of an id
that nobody has submitted every query tells that there is no run, and changes nothing. Whoever asks for a run
after its submission is told of a checkpoint of that run which has been written before, as long as the store
answers: of its status, and of a result exactly when that status is of an end. The report is the one of the
checkpoint itself when the store gives the checkpoints of the run back as they were written. Where it gives
the record that it has back otherwise, whoever asks once the cached record has been removed is told what no
checkpoint of the run says. -/
theorem reports_are_of_written_checkpoints {history : List Event} {b : Board}
    (reached : run? history empty = some b) :
    (∀ id, (∀ name workflowId now, .submit id name workflowId now ∉ history) →
      b.ledger.status id = (b.ledger, .unknown) ∧
      ∀ reader ∈ b.readers, reader.id = id → (reader.query.step b.ledger).1 = b.ledger ∧
        ∀ report, reader.query = .told report → report = .unknown) ∧
    ∀ id name workflowId now submitted later after,
      b.step? (.submit id name workflowId now) = some submitted → run? later submitted = some after →
      Served later submitted →
      let written := (checkpoints (.submit id name workflowId now :: later) b).filter (·.id = id)
      (after.Tells b.readers.length id fun report => ∃ c ∈ written, Reports c report) ∧
      ((∀ c ∈ written, Survives c) →
        after.Tells b.readers.length id fun report => ∃ c ∈ written, report = c.report) ∧
      ∀ c back, after.ledger.store.record? id = some c → Store.read c = .ok back → back.report ≠ c.report →
        ∃ last, run? (rereading id after.readers.length) after = some last ∧
          last.readers[after.readers.length]? = some ⟨id, .told back.report⟩ ∧
          ∀ c ∈ written, back.report ≠ c.report := by
  have recorded := recorded_of_run recorded_empty reached
  refine ⟨?_, ?_⟩
  · intro id unsubmitted
    refine recorded.unknown fun present => ?_
    obtain ⟨run, member, named⟩ := List.mem_map.mp present
    obtain ⟨name, workflowId, now, occurs⟩ := submitted_of_run reached run member
    exact unsubmitted name workflowId now (named ▸ occurs)
  · intro id name workflowId now submitted later after accepted run served written
    obtain ⟨unused, isRun, same⟩ := recorded.unused accepted
    have course : run? (.submit id name workflowId now :: later) b = some after := by
      rw [run?, accepted, Option.bind_some, run]
    have final := recorded_of_run recorded course
    have none_yet : submitted.Tells b.readers.length id (·.status ≠ .notFound) := by
      intro k reader report late standing
      rw [same, List.getElem?_eq_none late] at standing
      cases standing
    have known := known_of_run (recorded_step recorded accepted) isRun none_yet served run
    have told : after.Tells b.readers.length id fun report => ∃ c ∈ written, Reports c report := by
      intro k reader report late standing named told
      rcases final.told reader (List.mem_of_getElem? standing) report told with nothing | ⟨r, backed, own, rfl⟩
      · exact absurd (congrArg StatusReport.status nothing) (known k reader report late standing named told)
      · obtain ⟨c, member, isOwn, reports⟩ := final.reports_of_backed unused backed (own.trans named)
        exact ⟨c, List.mem_filter.mpr ⟨member, decide_eq_true isOwn⟩, reports⟩
    refine ⟨told, ?_, ?_⟩
    · intro survive k reader report late standing named is
      obtain ⟨c, member, reports⟩ := told k reader report late standing named is
      refine ⟨c, member, ?_⟩
      rcases reports.form with kept | ⟨back, readable, rfl⟩
      · exact kept
      · exact survive c member back readable
    · intro c back stored readable changed
      obtain ⟨last, runs, reread⟩ := run?_rereading stored readable
      refine ⟨last, runs, reread, fun r member => ?_⟩
      obtain ⟨later, named⟩ := List.mem_filter.mp member
      exact final.lost stored readable changed r later (of_decide_eq_true named)

/-- A run that has been submitted and goes on to its end. Somebody asks for it when its record has been taken
out of the cache, and reads the store before the run has written its end. -/
def watched : List Event :=
  beginning.tail ++ [.forget "r", .ask "r", .look 0, .look 0] ++ ending ++ [.look 0]

theorem watcher_told_of_checkpoint :
    ∃ submitted after, empty.step? (.submit "r" "report" none (.ofMillis 1)) = some submitted ∧
      run? watched submitted = some after ∧ Served watched submitted ∧
      after.readers = [⟨"r", .told ⟨.running, none⟩⟩] ∧
      after.Tells 0 "r" fun report =>
        ∃ c ∈ (checkpoints (.submit "r" "report" none (.ofMillis 1) :: watched) empty).filter (·.id = "r"),
          report = c.report := by
  let pending := Record.pending "r" "report" none (.ofMillis 1)
  let running := pending.transition .running none (.ofMillis 2)
  have accepted : empty.step? (.submit "r" "report" none (.ofMillis 1)) =
      some ⟨⟨⟨[pending], []⟩, Cache.empty.put pending⟩, [.start pending], []⟩ := rfl
  have written : checkpoints (.submit "r" "report" none (.ofMillis 1) :: watched) empty =
      [pending, running, finalRecord] := rfl
  have readable : ∀ c ∈ [pending, running, finalRecord], Store.read c = .ok c := by
    simp only [List.mem_cons, List.not_mem_nil, or_false]
    rintro c (rfl | rfl | rfl) <;> rfl
  have served : Served watched _ :=
    (recorded_step recorded_empty accepted).served fun c member => ⟨c, readable c member⟩
  have told := (reports_are_of_written_checkpoints (show run? [] empty = some empty from rfl)).2 "r" "report"
    none (.ofMillis 1) _ watched _ accepted rfl served
  refine ⟨_, _, accepted, rfl, served, rfl, told.2.1 ?_⟩
  rw [written]
  intro c member back is
  rw [readable c (List.mem_of_mem_filter member)] at is
  cases is
  rfl

def gauged : Value := .obj [("level", .num (.float 31.245270191439438))]

def gauging : List Event :=
  beginning.tail ++ [.work 0 (.ofMillis 3) (.finished (.ok gauged)), .work 0 (.ofMillis 3) .persisted,
    .work 0 (.ofMillis 3) .published]

theorem reread_gauged :
    ∃ v, Store.readValue gauged = .ok v ∧ v.text = "\x7b\"level\":31.24527019143944\x7d" := by
  have reread : (Json.parse? gauged.text).map (·.text) = some "\x7b\"level\":31.24527019143944\x7d" := by
    decide +kernel
  obtain ⟨v, parsed, text⟩ := Option.map_eq_some_iff.mp reread
  exact ⟨v, by rw [Store.readValue, parsed], text⟩

/-- Whoever asks for the run when its record has been taken out of the cache is told another number. -/
theorem reader_told_of_no_checkpoint :
    ¬ ∀ (history later : List Event) (b submitted after : Board) (id name : String)
        (workflowId : Option String) (now : Instant), run? history empty = some b →
      b.step? (.submit id name workflowId now) = some submitted → run? later submitted = some after →
      Served later submitted →
      after.Tells b.readers.length id fun report =>
        ∃ c ∈ (checkpoints (.submit id name workflowId now :: later) b).filter (·.id = id),
          report = c.report := by
  intro always
  let pending := Record.pending "r" "report" none (.ofMillis 1)
  let running := pending.transition .running none (.ofMillis 2)
  let gaugedRecord := Background.finishedRecord running (.ok gauged) (.ofMillis 3)
  let submitted : Board := ⟨⟨⟨[pending], []⟩, Cache.empty.put pending⟩, [.start pending], []⟩
  let gone : Board := ⟨⟨⟨[gaugedRecord], []⟩, ⟨[gaugedRecord]⟩⟩, [⟨gaugedRecord, .ended⟩], []⟩
  obtain ⟨v, given, text⟩ := reread_gauged
  have accepted : empty.step? (.submit "r" "report" none (.ofMillis 1)) = some submitted := rfl
  have ran : run? gauging submitted = some gone := rfl
  have readable : Store.read gaugedRecord = .ok { gaugedRecord with result := some v } := by
    have parsed : gaugedRecord.result.mapM Store.readValue = .ok (some v) := by
      show (Option.some <$> Store.readValue gauged) = _
      rw [given]
      rfl
    rw [Store.read, parsed]
    rfl
  have stored : gone.ledger.store.record? "r" = some gaugedRecord := rfl
  obtain ⟨last, reads, told⟩ := run?_rereading stored readable
  have run : run? (gauging ++ rereading "r" 0) submitted = some last := by
    rw [run?_append, ran, Option.bind_some]
    exact reads
  have written : checkpoints (gauging ++ rereading "r" 0) submitted = [running, gaugedRecord] := by
    rw [checkpoints_append, ran, Option.elim_some, checkpoints_rereading]
    rfl
  have served : Served (gauging ++ rereading "r" 0) submitted := by
    refine (recorded_step recorded_empty accepted).served ?_
    rw [written]
    intro c member
    rcases List.mem_append.mp member with first | later
    · cases List.mem_singleton.mp first
      exact ⟨_, rfl⟩
    · rcases List.mem_cons.mp later with rfl | final
      · exact ⟨_, rfl⟩
      · cases List.mem_singleton.mp final
        exact ⟨_, readable⟩
  obtain ⟨c, member, same⟩ := always [] _ empty submitted last "r" "report" none (.ofMillis 1) rfl accepted
    run served 0 _ _ le_rfl told rfl rfl
  have checkpoint : c ∈ [pending, running, gaugedRecord] := by
    have present := List.mem_of_mem_filter member
    rw [checkpoints, accepted, Option.elim_some, written] at present
    exact present
  have result : some v = c.result := congrArg StatusReport.result same
  simp only [List.mem_cons, List.not_mem_nil, or_false] at checkpoint
  rcases checkpoint with rfl | rfl | rfl
  · cases result
  · cases result
  · cases result
    exact absurd text (by decide +kernel)

end Board

end CrewFlow.Execution
