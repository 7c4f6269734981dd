import Mathlib
import CrewFlow.Proofs.Service.Ends
/-!
# Trackers are shops

What a tracker does while somebody waits is one of the many orders in which the runs of a shop may take their
steps. So what is known of every shop is known of every tracker.
-/
set_option autoImplicit false

namespace CrewFlow.Service

open Build (Collaborators)
open Execution (Background Happening Ledger Query StoreError)
open Time (Instant)

namespace Shop

variable {c : Collaborators Id} {shop : Shop}

/-! ## Jobs -/

/-- A job as an errand. -/
def errandOf (j : Job) (work : Work) : Errand :=
  ⟨j.submission, Tracker.flowId j.background.record.id, j.background, work⟩

/-- Between two looks of a waiter a job has not begun, is at work with a report that is known, or has ended. -/
inductive Stands (c : Collaborators Id) (j : Job) : Errand → Prop where
  | opening (phase : j.background.phase = .opening) : Stands c j (errandOf j .waiting)
  | working (phase : j.background.phase = .working) (now : Nat)
      (report : j.report = some (carryOut c j.submission (Tracker.flowId j.background.record.id) now)) :
      Stands c j (errandOf j .waiting)
  | ended (phase : j.background.phase = .ended) (work : Work) : Stands c j (errandOf j work)

variable {t : Tracker} {j : Job} {i : Nat} {e : Errand}

theorem steps_connected {b : Background} (fresh : b.phase = .opening) (l : Ledger) (time : Instant) :
    (b.steps l time [.connected, .persisted, .published]).2.phase = .working := by
  have goesOn : (b.record.transition .running none time).status.isTerminal = false := by
    rw [status_transition]
    rfl
  simp [Background.steps, Background.step, fresh, Background.afterPublishing, goesOn]

theorem steps_refused {b : Background} (fresh : b.phase = .opening) (l : Ledger) (time : Instant)
    (cause : StoreError) : (b.steps l time [.refused cause, .persisted, .published]).2.phase = .ended := by
  have terminal : (cutOff b.record cause time).status.isTerminal = true := by
    rw [cutOff, status_transition]
    rfl
  rw [cutOff] at terminal
  simp [Background.steps, Background.step, fresh, Background.afterPublishing, terminal]

/-- A job that takes steps takes those of its run. One that is not attached leaves the cache alone. -/
theorem leadsTo_of_advance {work : Work} (standing : shop.errands[i]? = some (errandOf j work))
    (ledger : shop.ledger = t.ledger) (happenings : List Happening)
    (own : ∀ result, .finished result ∈ happenings → work = .done result) :
    LeadsTo c shop (t.advance j happenings).1.ledger
      (shop.errands.set i (errandOf (t.advance j happenings).2 work)) := by
  have same : errandOf (t.advance j happenings).2 work = { errandOf j work with
      background := (j.background.steps shop.ledger t.tick.1 happenings).2 } := by
    rw [ledger]
    have named := id_steps t.ledger j.background t.tick.1 happenings
    exact congrArg (fun id => Errand.mk j.submission (Tracker.flowId id) _ work) named
  have leads : LeadsTo c shop _ _ := leadsTo_of_steps standing t.tick.1 happenings own
  rw [same]
  cases attached : j.isAttached with
  | true =>
      have kept : (t.advance j happenings).1.ledger =
          (j.background.steps shop.ledger t.tick.1 happenings).1 := by
        rw [ledger]
        exact if_pos attached
      rw [kept]
      exact leads
  | false =>
      have kept : (t.advance j happenings).1.ledger =
          { (j.background.steps shop.ledger t.tick.1 happenings).1 with cache := t.ledger.cache } := by
        rw [ledger]
        exact if_neg (by simp [attached])
      rw [kept]
      obtain ⟨next, moves, reached, errands⟩ := leads
      exact ⟨_, moves.tail (.cached t.ledger.cache),
        congrArg (fun l : Ledger => { l with cache := t.ledger.cache }) reached, errands⟩

/-- A job that begins opens a connection and works, or has ended. -/
theorem stands_of_beginJob (fresh : j.background.phase = .opening)
    (standing : shop.errands[i]? = some (errandOf j .waiting)) (ledger : shop.ledger = t.ledger) :
    ∃ new, Stands c (t.beginJob (carryOut c) j).2 new ∧
      LeadsTo c shop (t.beginJob (carryOut c) j).1.ledger (shop.errands.set i new) := by
  rw [Tracker.beginJob]
  split
  · next connections _ =>
      refine ⟨_, .working (steps_connected fresh _ _) _ rfl, ?_⟩
      exact leadsTo_of_advance (t := { t with connections }) standing ledger
        [.connected, .persisted, .published] (by simp)
  · refine ⟨_, .ended (steps_refused fresh _ _ _) .waiting, ?_⟩
    exact leadsTo_of_advance standing ledger [.refused refusal, .persisted, .published] (by simp)

theorem stands_of_finishJob (busy : j.background.phase = .working) {r : Run.Report} {now : Nat}
    (report : carryOut c j.submission (Tracker.flowId j.background.record.id) now = r)
    (standing : shop.errands[i]? = some (errandOf j .waiting)) (ledger : shop.ledger = t.ledger) :
    ∃ new, Stands c (t.finishJob j r).2 new ∧
      LeadsTo c shop (t.finishJob j r).1.ledger (shop.errands.set i new) := by
  have completes : LeadsTo c shop { shop.ledger with store := saveAll shop.ledger.store r.saved }
      (shop.errands.set i (errandOf j (.done r.result))) :=
    report ▸ completes_of_waiting standing busy rfl now
  refine ⟨_, .ended (congrArg Background.phase (steps_finished busy _ _ _)) (.done r.result), ?_⟩
  obtain ⟨next, moves, reached, errands⟩ := completes
  have there : next.errands[i]? = some (errandOf j (.done r.result)) := errands ▸ set_self standing
  refine .after (leadsTo_of_advance there ?_ [.finished r.result, .persisted, .published] ?_) moves errands
  · rw [reached, ledger]
    rfl
  · intro result member
    simp only [List.mem_cons, Happening.finished.injEq, reduceCtorEq, List.not_mem_nil, or_false] at member
    rw [member]

theorem stands_of_moveJob (stands : Stands c j e) (standing : shop.errands[i]? = some e)
    (ledger : shop.ledger = t.ledger) (before : Nat) :
    ∃ new, Stands c (t.moveJob (carryOut c) j before).2 new ∧
      LeadsTo c shop (t.moveJob (carryOut c) j before).1.ledger (shop.errands.set i new) := by
  have begins : ∀ begun,
      (if j.background.phase = .opening then t.beginJob (carryOut c) j else (t, j)) = begun →
        ∃ new, Stands c begun.2 new ∧ LeadsTo c shop begun.1.ledger (shop.errands.set i new) := by
    rintro begun rfl
    split
    · next fresh =>
        cases stands with
        | opening => exact stands_of_beginJob fresh standing ledger
        | working phase => cases fresh.symm.trans phase
        | ended phase => cases fresh.symm.trans phase
    · exact ⟨e, stands, shop, .refl, ledger, (set_of_standing standing).symm⟩
  rw [Tracker.moveJob]
  generalize (if j.background.phase = .opening then t.beginJob (carryOut c) j else (t, j)) = begun
    at begins ⊢
  obtain ⟨new, stands, leads⟩ := begins begun rfl
  obtain ⟨t, j⟩ := begun
  dsimp only
  split
  · next r report =>
      split
      · next due =>
          have busy : j.background.phase = .working := by simp_all
          cases stands with
          | opening phase => cases busy.symm.trans phase
          | ended phase => cases busy.symm.trans phase
          | working phase now known =>
              obtain ⟨next, moves, reached, errands⟩ := leads
              obtain ⟨last, ended, further⟩ := stands_of_finishJob busy
                (Option.some.inj (known.symm.trans report)) (errands ▸ set_self standing) reached
              exact ⟨last, ended, further.after moves errands⟩
      · exact ⟨new, stands, leads⟩
  · exact ⟨new, stands, leads⟩

/-- Jobs move one after the other. Those before and behind them stay where they are. -/
theorem stands_of_moveJobs {js : List Job} {rest : List Errand} (stand : List.Forall₂ (Stands c) js rest)
    {front : List Errand} (errands : shop.errands = front ++ rest) (ledger : shop.ledger = t.ledger)
    (before : Nat) :
    ∃ others, List.Forall₂ (Stands c) (t.moveJobs (carryOut c) before js).2 others ∧
      LeadsTo c shop (t.moveJobs (carryOut c) before js).1.ledger (front ++ others) := by
  induction stand generalizing shop t front with
  | nil => exact ⟨[], .nil, shop, .refl, ledger, errands⟩
  | @cons j e js rest stands stand ih =>
      have standing : shop.errands[front.length]? = some e := by simp [errands]
      obtain ⟨new, moved, leads⟩ := stands_of_moveJob stands standing ledger before
      -- The next job stands behind those that have moved already, and this one is now among them.
      have there : shop.errands.set front.length new = (front ++ [new]) ++ rest := by simp [errands]
      obtain ⟨next, moves, reached, errands⟩ := leads
      obtain ⟨others, stand, further⟩ := ih (errands.trans there) reached
      refine ⟨new :: others, .cons moved stand, ?_⟩
      rw [List.append_assoc, List.singleton_append] at further
      exact further.of_leads moves

/-! ## Trackers -/

/-- A tracker is a shop: they have the same ledger, and its jobs are the errands. -/
structure Tracks (c : Collaborators Id) (shop : Shop) (t : Tracker) : Prop where
  ledger : shop.ledger = t.ledger
  jobs : List.Forall₂ (Stands c) t.jobs shop.errands

/-- The moves of a shop can follow what has become of a tracker. -/
def Follows (c : Collaborators Id) (shop : Shop) (t : Tracker) : Prop :=
  ∃ next, Leads c shop next ∧ Tracks c next t

theorem exists_stands {js : List Job} {errands : List Errand} (stand : List.Forall₂ (Stands c) js errands)
    (member : j ∈ js) : ∃ e ∈ errands, Stands c j e := by
  induction stand with
  | nil => cases member
  | cons stands _ ih =>
      rcases List.mem_cons.mp member with rfl | member
      · exact ⟨_, List.mem_cons_self, stands⟩
      · obtain ⟨e, known, stands⟩ := ih member
        exact ⟨e, List.mem_cons_of_mem _ known, stands⟩

theorem Tracks.sleep (tracks : Tracks c shop t) : Follows c shop (t.sleep (carryOut c)) := by
  obtain ⟨others, stand, next, moves, ledger, errands⟩ := stands_of_moveJobs tracks.jobs
    (List.nil_append _).symm tracks.ledger (t.now + pollInterval)
  exact ⟨next, moves, ledger, errands ▸ stand⟩

theorem store_finish (l : Ledger) (q : Query) (n : Nat) : (q.finish l n).1.store = l.store := by
  induction n generalizing l q with
  | zero => rfl
  | succ n ih => exact (ih _ _).trans Query.store_step

theorem store_status (l : Ledger) (id : String) : (l.status id).1.store = l.store := by
  rw [Ledger.status]
  split <;> next same => exact (congrArg (fun r => r.1.store) same).symm.trans (store_finish l _ 3)

/-- Whatever changes the cache of a tracker only, the shop follows. -/
theorem Tracks.cached (tracks : Tracks c shop t) {next : Tracker}
    (store : next.ledger.store = t.ledger.store) (jobs : List.Forall₂ (Stands c) next.jobs shop.errands) :
    Follows c shop next := by
  refine ⟨_, .single (.cached next.ledger.cache), ?_, jobs⟩
  show (⟨shop.ledger.store, next.ledger.cache⟩ : Ledger) = next.ledger
  rw [tracks.ledger, ← store]

theorem Follows.trans {next : Tracker} (first : Follows c shop t)
    (rest : ∀ {shop : Shop}, Tracks c shop t → Follows c shop next) : Follows c shop next := by
  obtain ⟨middle, moves, tracks⟩ := first
  obtain ⟨last, more, tracks⟩ := rest tracks
  exact ⟨last, moves.trans more, tracks⟩

theorem Tracks.status (tracks : Tracks c shop t) (id : String) : Follows c shop (t.status id).1 :=
  tracks.cached (store_status t.ledger id) tracks.jobs

theorem Tracks.poll (tracks : Tracks c shop t) (id : String) (n : Nat) :
    Follows c shop (t.poll (carryOut c) id n).1 := by
  induction n generalizing shop t with
  | zero => exact tracks.status id
  | succ n ih =>
      rw [Tracker.poll]
      dsimp only
      split
      · exact tracks.status id
      · exact ((tracks.status id).trans Tracks.sleep).trans fun tracks => ih tracks

theorem submitted_of_submit {id : String} {s : Submission} {next : Tracker}
    (accepted : t.submit id s = .ok next) :
    ∃ ledger, t.ledger.submit (s.pending id t.tick.1) = .ok ledger ∧
      next = { t.tick.2 with
        ledger, jobs := t.jobs ++ [⟨s, .start (s.pending id t.tick.1), true, none⟩] } := by
  change (t.ledger.submit (s.pending id t.tick.1)).bind (fun ledger => .ok { t.tick.2 with
    ledger, jobs := t.jobs ++ [⟨s, .start (s.pending id t.tick.1), true, none⟩] }) = .ok next at accepted
  cases outcome : t.ledger.submit (s.pending id t.tick.1) with
  | error refusal =>
      rw [outcome] at accepted
      cases accepted
  | ok ledger =>
      rw [outcome] at accepted
      cases accepted
      exact ⟨ledger, rfl, rfl⟩

theorem Tracks.submit (tracks : Tracks c shop t) {id : String} {s : Submission} {next : Tracker}
    (accepted : t.submit id s = .ok next) : Follows c shop next := by
  obtain ⟨ledger, submitted, rfl⟩ := submitted_of_submit accepted
  obtain ⟨store, inserted, rfl⟩ := Ledger.submitted submitted
  rw [← tracks.ledger] at inserted ⊢
  refine ⟨_, .single (.submitted s (Tracker.flowId id) id t.tick.1 inserted), rfl, ?_⟩
  exact List.rel_append tracks.jobs (.cons (.opening rfl) .nil)

theorem Tracks.restart (tracks : Tracks c shop t) {next : Tracker} (accepted : t.restart = .ok next) :
    Follows c shop next := by
  rw [Tracker.restart] at accepted
  split at accepted
  · cases accepted
    refine tracks.cached rfl (List.forall₂_map_left_iff.mpr (tracks.jobs.imp fun j e stands => ?_))
    cases stands with
    | opening phase => exact .opening phase
    | working phase now report => exact .working phase now report
    | ended phase work => exact Stands.ended (j := { j with isAttached := false }) phase work
  · cases accepted

end Shop

namespace Tracker

/-- What can have happened to a tracker: it was started, and then there were submissions, questions for a
status, waiting, removals of cached records and new trackers on the same store. -/
inductive Reached (c : Collaborators Id) : Tracker → Prop where
  | started {connections : Option Nat} {t : Tracker} (accepted : start connections = .ok t) : Reached c t
  | submitted {t next : Tracker} {id : String} {s : Submission} (earlier : Reached c t)
      (accepted : t.submit id s = .ok next) : Reached c next
  | asked {t : Tracker} (earlier : Reached c t) (id : String) : Reached c (t.status id).1
  | waited {t : Tracker} (earlier : Reached c t) (id : String) (timeout : Nat) :
      Reached c (t.wait (carryOut c) id timeout).1
  | forgotten {t : Tracker} (earlier : Reached c t) (id : String) : Reached c (t.forget id)
  | restarted {t next : Tracker} (earlier : Reached c t) (accepted : t.restart = .ok next) : Reached c next

variable {c : Collaborators Id} {t : Tracker}

/-- Whatever happens to a tracker, there is a shop that has come to the same. -/
theorem Reached.exists_shop (reached : Reached c t) : Shop.Follows c .empty t := by
  induction reached with
  | @started connections t accepted =>
      rw [start] at accepted
      split at accepted
      · cases accepted
        exact ⟨.empty, .refl, rfl, .nil⟩
      · cases accepted
  | submitted earlier accepted ih => exact ih.trans fun tracks => tracks.submit accepted
  | asked earlier id ih => exact ih.trans fun tracks => tracks.status id
  | waited earlier id timeout ih => exact ih.trans fun tracks => tracks.poll id _
  | forgotten earlier id ih => exact ih.trans fun tracks => tracks.cached rfl tracks.jobs
  | restarted earlier accepted ih => exact ih.trans fun tracks => tracks.restart accepted

/-- What the store of a tracker holds of a job that has ended is the last of all that is ever written for its
submission. -/
theorem Reached.stored_of_ended (reached : Reached c t) {j : Job} (member : j ∈ t.jobs)
    (ended : j.background.phase = .ended) :
    t.ledger.store.record? j.background.record.id = some j.background.record ∧
      ∃ time whole, WholeCourse c j.submission (flowId j.background.record.id)
        (j.submission.pending j.background.record.id time) whole ∧
        whole.getLast? = some (.update j.background.record) := by
  obtain ⟨shop, leads, tracks⟩ := reached.exists_shop
  have sound := Shop.sound_of_leads (Shop.sound_empty c) leads
  obtain ⟨e, known, stands⟩ := Shop.exists_stands tracks.jobs member
  cases stands with
  | opening phase => cases ended.symm.trans phase
  | working phase => cases ended.symm.trans phase
  | ended phase work =>
      obtain ⟨time, course⟩ := sound.courses _ known
      obtain ⟨r, stored, _, current⟩ := sound.onBoard.kept j.background (List.mem_map_of_mem known)
      have last : r = j.background.record := current (by simp [ended])
      refine ⟨?_, time, _, course.whole_of_ended ended, course.last_of_ended ended⟩
      rw [← tracks.ledger, ← last]
      exact last ▸ stored

end Tracker

end CrewFlow.Service
