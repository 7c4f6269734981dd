import Mathlib
import CrewFlow.Proofs.Execution.Checkpoints
/-!
# Reopened runs

A record that goes through changes of its status in any order. It has the result and the time of its last end,
whatever comes behind that end. So it tells of an end exactly while it is at one, unless a run that was over has been
reopened.
-/
set_option autoImplicit false

namespace CrewFlow.Execution

open Json (Value)
open Service (status_transition)
open Time (Instant)

/-! ## Changes -/

structure Change where
  status : Status
  result : Option Value
  now : Instant

/-- A run that was over has been changed again, and since then has not been over. -/
def Reopened (changes : List Change) : Prop :=
  ∃ before ending behind, changes = before ++ ending :: behind ∧ ending.status.isTerminal = true ∧ behind ≠ [] ∧
    ∀ change ∈ behind, change.status.isTerminal = false

/-- The last change by which a run was over. -/
def lastEnd? (changes : List Change) : Option Change := changes.reverse.find? fun change => change.status.isTerminal

def lastStatus (changes : List Change) : Status := (changes.getLast?.map (·.status)).getD .pending

section Changes
variable (changes : List Change) (change : Change)

theorem lastEnd?_append :
    lastEnd? (changes ++ [change]) = if change.status.isTerminal then some change else lastEnd? changes := by
  rw [lastEnd?, List.reverse_append, List.reverse_singleton, List.singleton_append, List.find?_cons]
  cases change.status.isTerminal <;> rfl

theorem lastStatus_append : lastStatus (changes ++ [change]) = change.status := by
  rw [lastStatus, List.getLast?_concat]
  rfl

variable {changes}

theorem lastStatus_of_last {before behind : List Change} {change : Change}
    (last : changes = before ++ change :: behind) (settled : ∀ other ∈ behind, other.status.isTerminal = false)
    (more : behind ≠ []) : (lastStatus changes).isTerminal = false := by
  obtain ⟨others, final, rfl⟩ := (List.eq_nil_or_concat behind).resolve_left more
  have whole : changes = (before ++ change :: others) ++ [final] := by
    rw [last, List.append_assoc, List.cons_append, List.concat_eq_append]
  rw [whole, lastStatus_append]
  exact settled final (by simp)

/-- A run is reopened when it has had an end but is not at one. -/
theorem reopened_iff : Reopened changes ↔ (lastEnd? changes).isSome = true ∧ (lastStatus changes).isTerminal = false := by
  constructor
  · rintro ⟨before, ending, behind, rfl, ended, more, settled⟩
    refine ⟨?_, lastStatus_of_last rfl settled more⟩
    rw [lastEnd?, List.find?_isSome]
    exact ⟨ending, by simp, ended⟩
  · rintro ⟨some_end, open_again⟩
    obtain ⟨ending, found⟩ := Option.isSome_iff_exists.mp some_end
    obtain ⟨ended, later, earlier, split, settled⟩ := List.find?_eq_some_iff_append.mp found
    have whole : changes = earlier.reverse ++ ending :: later.reverse := by
      rw [← List.reverse_reverse changes, split, List.reverse_append, List.reverse_cons, List.append_assoc,
        List.singleton_append]
    refine ⟨earlier.reverse, ending, later.reverse, whole, ended, ?_, ?_⟩
    · intro nothing
      rw [whole, nothing, lastStatus_append, ended] at open_again
      cases open_again
    · intro change member
      simpa using settled change (List.mem_reverse.mp member)

end Changes

/-! ## Records -/

namespace Record

section Transition
variable (r : Record) (status : Status) (result : Option Value) (now : Instant)

theorem result_transition :
    (r.transition status result now).result = if status.isTerminal then result else r.result := by
  unfold transition
  split <;> rfl

theorem finishedAt_transition :
    (r.transition status result now).finishedAt = if status.isTerminal then some now else r.finishedAt := by
  unfold transition
  split <;> rfl

end Transition

def after (r : Record) (changes : List Change) : Record :=
  changes.foldl (fun r change => r.transition change.status change.result change.now) r

theorem after_append (r : Record) (changes : List Change) (change : Change) :
    r.after (changes ++ [change]) = (r.after changes).transition change.status change.result change.now := by
  rw [after, List.foldl_append]
  rfl

/-- What a record says after changes: its status is the last one, its result and finish are those of the last end. -/
structure After (changes : List Change) (r : Record) : Prop where
  status : r.status = lastStatus changes
  result : r.result = (lastEnd? changes).bind (·.result)
  finishedAt : r.finishedAt = (lastEnd? changes).map (·.now)

theorem After.next {changes : List Change} {r : Record} (known : After changes r) (change : Change) :
    After (changes ++ [change]) (r.transition change.status change.result change.now) where
  status := by rw [status_transition, lastStatus_append]
  result := by
    rw [result_transition, lastEnd?_append, known.result]
    cases change.status.isTerminal <;> rfl
  finishedAt := by
    rw [finishedAt_transition, lastEnd?_append, known.finishedAt]
    cases change.status.isTerminal <;> rfl

theorem after_pending (id name : String) (workflowId : Option String) (start : Instant) (changes : List Change) :
    After changes ((pending id name workflowId start).after changes) := by
  -- By induction on the changes, the last one taken first: what is said hangs on the last of them.
  induction changes using List.reverseRecOn with
  | nil => exact ⟨rfl, rfl, rfl⟩
  | append_singleton changes change ih =>
      rw [after_append]
      exact ih.next change

/-! ## Rows -/

/-- The row of a record in a store that has just taken it in. -/
inductive RowOf (r : Record) : Record → Prop where
  | inserted {s next : Store} {row : Record} (done : s.insert r = .ok next) (there : next.record? r.id = some row) :
      RowOf r row
  | updated {s next : Store} {row : Record} (done : s.update r = .ok next) (there : next.record? r.id = some row) :
      RowOf r row

theorem exists_rowOf (r : Record) : ∃ row, r.RowOf row := by
  have done : Store.empty.insert r = .ok ⟨[r], []⟩ := rfl
  exact ⟨r, .inserted done (by rw [Store.record?_insert done, if_pos rfl])⟩

/-- A row says what its record says of status, result and finish. -/
structure SaysAs (r row : Record) : Prop where
  status : row.status = r.status
  result : row.result = r.result
  finishedAt : row.finishedAt = r.finishedAt

theorem RowOf.saysAs {r row : Record} (stored : RowOf r row) : SaysAs r row := by
  cases stored with
  | inserted done there =>
      rw [Store.record?_insert done, if_pos rfl] at there
      cases there
      exact ⟨rfl, rfl, rfl⟩
  | @updated s next row done there =>
      cases found : s.record? r.id with
      | none =>
          rw [Store.update_of_absent found] at done
          cases done
      | some old =>
          rw [Store.update_of_there found] at done
          cases done
          rw [Store.record?_revised found, Function.update_self] at there
          cases there
          exact ⟨rfl, rfl, rfl⟩

end Record

/-! ## Ends -/

/-- A record tells of an end only while it is at one, and so do its report, its rows and what is read back of
them. -/
structure Record.TellsOnlyEnds (r : Record) : Prop where
  result : r.result.isSome = true → r.status.isTerminal = true
  finish : r.finishedAt.isSome = true → r.status.isTerminal = true
  report : r.report.result.isSome = true → r.report.status.isTerminal = true
  row : ∀ row, r.RowOf row → row.result.isSome = true ∨ row.finishedAt.isSome = true → row.status.isTerminal = true
  back : ∀ row back, r.RowOf row → Store.read row = .ok back →
    back.result.isSome = true ∨ back.finishedAt.isSome = true → back.status.isTerminal = true

theorem tellsOnlyEnds_iff {r : Record} (finished : r.result.isSome = true → r.finishedAt.isSome = true) :
    r.TellsOnlyEnds ↔ (r.finishedAt.isSome = true → r.status.isTerminal = true) := by
  refine ⟨fun only => only.finish, fun only => ?_⟩
  have here : r.result.isSome = true ∨ r.finishedAt.isSome = true → r.status.isTerminal = true := by
    rintro (result | finish)
    · exact only (finished result)
    · exact only finish
  refine ⟨fun result => here (.inl result), only, fun result => here (.inl result), ?_, ?_⟩
  · intro row stored
    obtain ⟨status, result, finish⟩ := stored.saysAs
    rw [status, result, finish]
    exact here
  · intro row back stored readable
    obtain ⟨status, result, finish⟩ := stored.saysAs
    rw [Store.read_eq readable]
    dsimp only
    rw [Store.isSome_result_of_read readable, status, result, finish]
    exact here

/-- Whatever changes a record goes through, it tells of an end only while it is at one exactly when its run has not
been reopened. In every case its status is the last one, its result and finish are those of the last end, and report
and rows say the same. -/
theorem only_ends_told_iff (id name : String) (workflowId : Option String) (start : Instant) (changes : List Change) :
    let r := (Record.pending id name workflowId start).after changes
    (r.TellsOnlyEnds ↔ ¬Reopened changes) ∧
      Record.After changes r ∧ r.report = ⟨r.status, r.result⟩ ∧
      (∃ row, r.RowOf row) ∧ ∀ row, r.RowOf row → r.SaysAs row := by
  intro r
  have known : Record.After changes r := Record.after_pending id name workflowId start changes
  refine ⟨?_, known, rfl, r.exists_rowOf, fun row stored => stored.saysAs⟩
  have finished : r.result.isSome = true → r.finishedAt.isSome = true := by
    rw [known.result, known.finishedAt]
    cases lastEnd? changes with
    | none => exact fun result => result
    | some ending => exact fun _ => rfl
  rw [tellsOnlyEnds_iff finished, reopened_iff, known.status, known.finishedAt, Option.isSome_map]
  cases (lastEnd? changes).isSome <;> cases (lastStatus changes).isTerminal <;> simp

def completedThenRunning : List Change := [⟨.completed, some (.str "done"), ⟨1, 0⟩⟩, ⟨.running, none, ⟨2, 0⟩⟩]

/-- A running record has the result and the finish of an end before. -/
theorem running_record_keeps_result :
    let r := (Record.pending "r" "report" none ⟨0, 0⟩).after completedThenRunning
    r.report = ⟨.running, some (.str "done")⟩ ∧ r.finishedAt = some ⟨1, 0⟩ ∧ ¬r.TellsOnlyEnds := by
  refine ⟨rfl, rfl, fun only => ?_⟩
  cases only.finish rfl

end CrewFlow.Execution
