import Mathlib
import CrewFlow.Proofs.Service.Shop
/-!
# Runs come to their end

The work on a submission can always be done, in as many steps as it takes, and so every run of a shop can go
on to its end while all others stay where they are.
-/
set_option autoImplicit false

namespace CrewFlow.Service

open Build (Collaborators)
open CrewFlow.Flow (Graph Trail Visit Walk trail_of_run)
open Execution (Background Happening Ledger Record Snapshot)
open Json (Value)
open Text (Inputs)
open Time (Instant)

namespace Shop

def LeadsTo (c : Collaborators Id) (shop : Shop) (ledger : Ledger) (errands : List Errand) : Prop :=
  ∃ next, Leads c shop next ∧ next.ledger = ledger ∧ next.errands = errands

variable {c : Collaborators Id} {shop : Shop}

theorem LeadsTo.of_leads {next : Shop} {ledger : Ledger} {errands : List Errand}
    (rest : LeadsTo c next ledger errands) (moves : Leads c shop next) : LeadsTo c shop ledger errands := by
  obtain ⟨last, more, reached⟩ := rest
  exact ⟨last, moves.trans more, reached⟩

theorem LeadsTo.after {next : Shop} {i : Nat} {new last : Errand} {ledger : Ledger}
    (rest : LeadsTo c next ledger (next.errands.set i last)) (moves : Leads c shop next)
    (errands : next.errands = shop.errands.set i new) : LeadsTo c shop ledger (shop.errands.set i last) := by
  rw [errands, List.set_set] at rest
  exact rest.of_leads moves

variable {i : Nat} {e : Errand}

theorem set_self {new : Errand} (standing : shop.errands[i]? = some e) :
    (shop.errands.set i new)[i]? = some new :=
  List.getElem?_set_self (List.getElem?_eq_some_iff.mp standing).1

theorem set_of_standing (standing : shop.errands[i]? = some e) : shop.errands.set i e = shop.errands := by
  obtain ⟨below, here⟩ := List.getElem?_eq_some_iff.mp standing
  rw [← here, List.set_getElem_self]

/-! ## Work -/

def Completes (c : Collaborators Id) (shop : Shop) (i : Nat) (e : Errand) (states : List Snapshot)
    (result : Except BuildError Value) : Prop :=
  LeadsTo c shop { shop.ledger with store := saveAll shop.ledger.store states }
    (shop.errands.set i { e with work := .done result })

def workedOn (shop : Shop) (i : Nat) (e : Errand) (states : List Snapshot) : Shop :=
  { shop with
    ledger := { shop.ledger with store := saveAll shop.ledger.store states }
    errands := shop.errands.set i e }

theorem standing_workedOn (standing : shop.errands[i]? = some e) (new : Errand) (states : List Snapshot) :
    (shop.workedOn i new states).errands[i]? = some new := set_self standing

theorem Completes.of_progress (standing : shop.errands[i]? = some e) (busy : e.background.phase = .working)
    {old work : Work} {states more : List Snapshot} {result : Except BuildError Value}
    (current : e.work = old)
    (progress : Progress c e.submission e.flowId shop.ledger.store old
      (saveAll shop.ledger.store states) work)
    (rest : Completes c (shop.workedOn i { e with work } states) i { e with work } more result) :
    Completes c shop i e (states ++ more) result := by
  rw [Completes, saveAll_append]
  exact .after rest (.single (.worked i standing busy (current ▸ progress))) rfl

theorem Completes.of_end (standing : shop.errands[i]? = some e) (busy : e.background.phase = .working)
    {old : Work} {result : Except BuildError Value} (current : e.work = old)
    (progress : Progress c e.submission e.flowId shop.ledger.store old shop.ledger.store (.done result)) :
    Completes c shop i e [] result :=
  ⟨_, .single (.worked i standing busy (current ▸ progress)), rfl, rfl⟩

theorem completes_of_trail {crews : List Crew} {inputs : Inputs} {graph : Graph} {walk : Walk Run.Clock}
    {visits : List Visit} {ending : Walk Run.Clock × Option ExecutionError}
    (trail : Trail Run.runCrew crews inputs graph walk visits ending)
    (standing : shop.errands[i]? = some e) (onInputs : e.submission.inputs = inputs)
    (busy : e.background.phase = .working) (walking : e.work = .walking graph crews walk) :
    Completes c shop i e (ending.1.saved.drop walk.saved.length) (resultOf ending) := by
  induction trail generalizing shop e with
  | ends halt =>
      rw [halt.saved_eq, List.drop_length]
      exact .of_end standing busy walking (.halted (onInputs ▸ halt))
  | @goesOn walk next visit visits ending round rest ih =>
      obtain ⟨first, begins⟩ := round.saved_prefix
      obtain ⟨second, goesOn⟩ := rest.saved_prefix
      -- What is saved from here on is what the first round saves, and then what the others do.
      have states : ending.1.saved.drop walk.saved.length =
          next.saved.drop walk.saved.length ++ ending.1.saved.drop next.saved.length := by
        rw [← goesOn, ← begins]
        simp
      rw [states]
      refine .of_progress standing busy walking (.went (onInputs ▸ round)) ?_
      exact ih (standing_workedOn standing _ _) onInputs busy rfl

theorem completes_of_waiting (standing : shop.errands[i]? = some e)
    (busy : e.background.phase = .working) (waiting : e.work = .waiting) (now : Nat) :
    Completes c shop i e (carryOut c e.submission e.flowId now).saved
      (carryOut c e.submission e.flowId now).result := by
  rcases compiled : (Run.compile c e.submission.document e.submission.wish).run with
    refusal | ⟨crews | ⟨graph, crews, fields⟩, agents⟩
  · rw [carryOut, Run.compileAndRun, compiled]
    exact .of_end standing busy waiting (.refused compiled)
  · rw [carryOut, Run.compileAndRun, compiled]
    exact .of_end standing busy waiting (.gathered compiled now)
  · obtain ⟨visits, trail⟩ := trail_of_run Run.runCrew crews e.submission.inputs graph
      (firstWalk e.submission e.flowId graph fields agents now)
    generalize ends : (firstWalk e.submission e.flowId graph fields agents now).run Run.runCrew crews
      e.submission.inputs graph = ending at trail
    obtain ⟨result, saved⟩ := carryOut_flow compiled now ends
    rw [result, saved]
    show Completes c shop i e ([] ++ ending.1.saved) (resultOf ending)
    refine .of_progress standing busy waiting (.started compiled now) ?_
    exact completes_of_trail trail (standing_workedOn standing _ _) rfl busy rfl

/-! ## Steps -/

theorem id_steps (l : Ledger) (b : Background) (time : Instant) (happenings : List Happening) :
    (b.steps l time happenings).2.record.id = b.record.id := by
  induction happenings generalizing l b with
  | nil => rfl
  | cons happening rest ih =>
      rw [Background.steps]
      split
      · next stepped =>
          exact (ih _ _).trans (Record.id_of_origin (Background.stepped_of_step stepped).origin)
      · exact ih l b

theorem leadsTo_of_steps (standing : shop.errands[i]? = some e) (time : Instant)
    (happenings : List Happening)
    (own : ∀ result, .finished result ∈ happenings → e.work = .done result) :
    LeadsTo c shop (e.background.steps shop.ledger time happenings).1
      (shop.errands.set i { e with background := (e.background.steps shop.ledger time happenings).2 }) := by
  induction happenings generalizing shop e with
  | nil => exact ⟨shop, .refl, rfl, (set_of_standing standing).symm⟩
  | cons happening rest ih =>
      rw [Background.steps]
      split
      · next ledger after stepped =>
          have first : Leads c shop ⟨ledger, shop.errands.set i { e with background := after },
              shop.log ++ written e.background happening⟩ := by
            refine .single (.stepped i time happening standing ?_ stepped)
            rintro result rfl
            exact own result List.mem_cons_self
          have stands : (Shop.errands ⟨ledger, shop.errands.set i { e with background := after },
              shop.log ++ written e.background happening⟩)[i]? = some { e with background := after } :=
            set_self standing
          refine .after (ih stands fun result member => ?_) first rfl
          exact own result (List.mem_cons_of_mem _ member)
      · exact ih standing fun result member => own result (List.mem_cons_of_mem _ member)

theorem steps_finished {b : Background} (busy : b.phase = .working) (l : Ledger) (time : Instant)
    (result : Except BuildError Value) :
    (b.steps l time [.finished result, .persisted, .published]).2 =
      ⟨Background.finishedRecord b.record result time, .ended⟩ := by
  simp [Background.steps, Background.step, busy, Background.afterPublishing, isTerminal_finishedRecord]

theorem phase_steps (b : Background) (l : Ledger) (time : Instant) :
    (b.steps l time [.connected, .persisted, .published]).2.phase = .working ∨
      (b.steps l time [.connected, .persisted, .published]).2.phase = .ended := by
  have settled : ∀ r : Record, Background.afterPublishing r = .working ∨
      Background.afterPublishing r = .ended := by
    intro r
    rw [Background.afterPublishing]
    split
    · exact .inr rfl
    · exact .inl rfl
  obtain ⟨record, phase⟩ := b
  cases phase with
  | opening => exact settled (record.transition .running none time)
  | persisting => exact settled record
  | publishing => exact settled record
  | working => exact .inl rfl
  | ended => exact .inr rfl

/-! ## Ends -/

def Ends (c : Collaborators Id) (shop : Shop) (i : Nat) (id : String) : Prop :=
  ∃ ledger last, LeadsTo c shop ledger (shop.errands.set i last) ∧ last.id = id ∧
    last.background.phase = .ended

theorem Ends.of_leadsTo {ledger : Ledger} {new : Errand}
    (leads : LeadsTo c shop ledger (shop.errands.set i new)) (standing : shop.errands[i]? = some e)
    (same : new.id = e.id)
    (rest : ∀ {next : Shop}, next.errands[i]? = some new → Ends c next i new.id) : Ends c shop i e.id := by
  obtain ⟨next, moves, _, errands⟩ := leads
  obtain ⟨final, last, further, named, ended⟩ := rest (errands ▸ set_self standing)
  exact ⟨final, last, further.after moves errands, named.trans same, ended⟩

theorem ends_of_done (standing : shop.errands[i]? = some e) (busy : e.background.phase = .working)
    {result : Except BuildError Value} (done : e.work = .done result) : Ends c shop i e.id := by
  have time := e.background.record.createdAt
  have ended := steps_finished busy shop.ledger time result
  refine ⟨_, _, leadsTo_of_steps standing time [.finished result, .persisted, .published] ?_, ?_, ?_⟩
  · intro other member
    simp only [List.mem_cons, Happening.finished.injEq, reduceCtorEq, List.not_mem_nil, or_false] at member
    rw [member]
    exact done
  · exact id_steps _ _ _ _
  · rw [ended]

theorem ends_of_working (standing : shop.errands[i]? = some e) (busy : e.background.phase = .working) :
    Ends c shop i e.id := by
  cases work : e.work with
  | waiting =>
      refine .of_leadsTo (completes_of_waiting standing busy work 0) standing rfl ?_
      exact fun standing => ends_of_done standing busy rfl
  | walking graph crews walk =>
      obtain ⟨visits, trail⟩ := trail_of_run Run.runCrew crews e.submission.inputs graph walk
      refine .of_leadsTo (completes_of_trail trail standing rfl busy work) standing rfl ?_
      exact fun standing => ends_of_done standing busy rfl
  | done result => exact ends_of_done standing busy work

/-- Whatever the others do, every run can go on to its end. -/
theorem ends_of_errand (standing : shop.errands[i]? = some e) : Ends c shop i e.id := by
  have time := e.background.record.createdAt
  -- From wherever the run stands before its work, these steps lead to it; those that it has taken are left out.
  have named := id_steps shop.ledger e.background time [.connected, .persisted, .published]
  have leads : LeadsTo c shop _ _ :=
    leadsTo_of_steps standing time [.connected, .persisted, .published] (by simp)
  rcases phase_steps e.background shop.ledger time with busy | ended
  · exact .of_leadsTo leads standing named fun standing => ends_of_working standing busy
  · exact ⟨_, _, leads, named, ended⟩

end Shop

end CrewFlow.Service
