import Mathlib
import CrewFlow.Proofs.Service.Tracking
/-!
# Lifecycles of runs

What is written for each of any number of runs, however their steps interleave.
-/
set_option autoImplicit false

namespace CrewFlow.Service

open Build (Collaborators)
open Execution (Background Record)

namespace Shop

/-- Every tracker is a shop. Whatever submissions come to a shop and however their runs interleave, the store
holds what has been written, and every record that was written has a result and a time of its end exactly
when its status is terminal. What has been written for a run is the beginning of its whole course: its first
record, that it runs, and the outcome that its submission has by itself, or that it has no connection. It is
all of it when the run has ended, and nothing more is ever written then; and every run can go on to its end. -/
theorem runs_keep_their_lifecycle (c : Collaborators Id) :
    (∀ t, Tracker.Reached c t → Follows c empty t) ∧
    ∀ shop, Leads c empty shop →
      replay shop.log = .ok { shop.ledger.store with snapshots := [] } ∧
      (∀ w ∈ shop.log, Consistent w.record ∧ w.runId ∈ shop.ids) ∧ shop.ids.Nodup ∧
      ∀ e ∈ shop.errands, ∃ time,
        (∃ whole, WholeCourse c e.submission e.flowId (e.submission.pending e.id time) whole ∧
          writesOf e.id shop.log <+: whole) ∧
        (e.background.phase = .ended →
          WholeCourse c e.submission e.flowId (e.submission.pending e.id time) (writesOf e.id shop.log) ∧
          ∀ later, Leads c shop later →
            e ∈ later.errands ∧ writesOf e.id later.log = writesOf e.id shop.log) ∧
        ∃ later last, Leads c shop later ∧ last ∈ later.errands ∧ last.id = e.id ∧
          last.background.phase = .ended := by
  refine ⟨fun t => Tracker.Reached.exists_shop, fun shop reached => ?_⟩
  have sound : Sound c shop := sound_of_leads (sound_empty c) reached
  refine ⟨sound.replayed, fun w member => ⟨?_, sound.about w member⟩, sound.nodup_ids, ?_⟩
  · obtain ⟨e, known, same⟩ := List.mem_map.mp (sound.about w member)
    obtain ⟨time, course⟩ := sound.courses e known
    obtain ⟨whole, wholeCourse, begins⟩ := course.exists_whole
    refine consistent_of_mem_whole ⟨rfl, rfl, rfl⟩ wholeCourse w (begins.subset ?_)
    exact List.mem_filter.mpr ⟨member, by simpa using same.symm⟩
  · intro e member
    obtain ⟨time, course⟩ := sound.courses e member
    refine ⟨time, course.exists_whole, fun ended => ⟨course.whole_of_ended ended, ?_⟩, ?_⟩
    · exact fun later leads => sound.kept_after_end leads member ended
    · obtain ⟨i, standing⟩ := List.mem_iff_getElem?.mp member
      obtain ⟨_, last, ⟨later, leads, _, errands⟩, same, ended⟩ := ends_of_errand standing
      exact ⟨later, last, leads, errands ▸ List.mem_of_getElem? (set_self standing), same, ended⟩

def idle : Collaborators Id := ⟨fun _ => .ok [], fun _ => .error "no model", none⟩

def blank : Submission := ⟨"", none, [], none, none⟩

theorem exists_refusal_blank :
    ∃ e, (Run.compile idle blank.document blank.wish).run = .error (.config e) := by
  have refused : (Spec.check "" none).toOption.isNone = true := by decide +kernel
  cases checked : Spec.check "" none with
  | ok w => simp [checked, Except.toOption] at refused
  | error e => exact ⟨e, by simp [Run.compile, blank, checked, Id.run, pure]⟩

/-- Two runs whose steps alternate: one begins and fails because of its document, the other has no
connection. -/
theorem exists_two_runs :
    ∃ shop, Leads idle empty shop ∧
      shop.log.map (fun w => (w.runId, w.record.status)) =
        [("a", .pending), ("b", .pending), ("a", .running), ("b", .failed), ("a", .failed)] ∧
      ∀ e ∈ shop.errands, e.background.phase = .ended := by
  obtain ⟨refusal, compiled⟩ := exists_refusal_blank
  have submitted : Leads idle empty _ := (Relation.ReflTransGen.refl.tail
    (.submitted blank "state a" "a" (.ofMillis 1) rfl)).tail
    (.submitted blank "state b" "b" (.ofMillis 2) rfl)
  have opened := (submitted.tail
    (.stepped 0 (.ofMillis 3) .connected rfl (fun _ => nofun) rfl)).tail
    (.stepped 1 (.ofMillis 4) (.refused .database) rfl (fun _ => nofun) rfl)
  have noted := (((opened.tail
    (.stepped 0 (.ofMillis 5) .persisted rfl (fun _ => nofun) rfl)).tail
    (.stepped 1 (.ofMillis 5) .persisted rfl (fun _ => nofun) rfl)).tail
    (.stepped 0 (.ofMillis 6) .published rfl (fun _ => nofun) rfl)).tail
    (.stepped 1 (.ofMillis 6) .published rfl (fun _ => nofun) rfl)
  have worked := (noted.tail (.worked 0 rfl rfl (.refused compiled))).tail
    (.stepped 0 (.ofMillis 7) (.finished (.error (.config refusal))) rfl (fun _ same => by cases same; rfl) rfl)
  have last := (worked.tail
    (.stepped 0 (.ofMillis 8) .persisted rfl (fun _ => nofun) rfl)).tail
    (.stepped 0 (.ofMillis 9) .published rfl (fun _ => nofun) rfl)
  refine ⟨_, last, ?_, ?_⟩
  · simp [written, empty, Write.runId, Write.record, Submission.pending, Record.pending, Background.start,
      Record.transition, Background.finishedRecord, Execution.Status.isTerminal]
  · simp only [empty, List.nil_append, List.cons_append, List.set_cons_zero, List.set_cons_succ,
      List.forall_mem_cons]
    exact ⟨rfl, rfl, List.forall_mem_nil _⟩

theorem two_runs_keep_their_lifecycle :
    ∃ shop, Leads idle empty shop ∧
      shop.log.map (fun w => (w.runId, w.record.status)) =
        [("a", .pending), ("b", .pending), ("a", .running), ("b", .failed), ("a", .failed)] ∧
      ∀ e ∈ shop.errands, ∃ time,
        WholeCourse idle e.submission e.flowId (e.submission.pending e.id time) (writesOf e.id shop.log) := by
  obtain ⟨shop, reached, log, ended⟩ := exists_two_runs
  obtain ⟨_, _, _, lifecycles⟩ := (runs_keep_their_lifecycle idle).2 shop reached
  refine ⟨shop, reached, log, fun e member => ?_⟩
  obtain ⟨time, _, course, _⟩ := lifecycles e member
  exact ⟨time, (course (ended e member)).1⟩

end Shop

end CrewFlow.Service
