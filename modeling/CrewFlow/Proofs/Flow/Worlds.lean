import Mathlib
import CrewFlow.Proofs.Flow.Trail
/-!
# Walks in other worlds

A walk depends on its world only through the crews that run in it. Where crews do the same in another world,
the walk goes the same way there.
-/
set_option autoImplicit false

namespace CrewFlow.Flow

open Text (Inputs)

variable {σ τ : Type} {runner : Runner σ} {other : Runner τ} (view : σ → τ)

def Walk.inWorld (w : Walk σ) : Walk τ := { w with world := view w.world }

variable (same : ∀ crew inputs world, other crew inputs (view world) =
  ((runner crew inputs world).1, view (runner crew inputs world).2))
include same

theorem act_inWorld (crews : List Crew) (inputs : Inputs) (s : Step) (state : State) (world : σ) :
    act other crews inputs s state (view world) =
      ((act runner crews inputs s state world).1, view (act runner crews inputs s state world).2) := by
  rw [act, act]
  cases s.action with
  | noop => rfl
  | finalize => rfl
  | runCrew name =>
      simp only
      cases crewOf? crews name with
      | none => rfl
      | some crew =>
          simp only [same]
          rcases runner crew (overlay inputs state.fields) world with ⟨_ | result, world⟩ <;> rfl

theorem Halt.inWorld {crews : List Crew} {inputs : Inputs} {g : Graph} {w : Walk σ}
    {ending : Walk σ × Option ExecutionError} (halt : Halt runner crews inputs g w ending) :
    Halt other crews inputs g (w.inWorld view) (ending.1.inWorld view, ending.2) := by
  cases halt with
  | done nothing => exact .done nothing
  | missing waiting fresh absent => exact .missing waiting fresh absent
  | @failed name queue s e world waiting fresh found acted =>
      have there := act_inWorld view same crews inputs s w.state w.world
      rw [acted] at there
      exact .failed waiting fresh found there

theorem Round.inWorld {crews : List Crew} {inputs : Inputs} {g : Graph} {w next : Walk σ}
    {visit : Option Visit} (round : Round runner crews inputs g w visit next) :
    Round other crews inputs g (w.inWorld view) visit (next.inWorld view) := by
  cases round with
  | leaveOut waiting done => exact .leaveOut waiting done
  | @visit name queue s state produced world waiting fresh found acted =>
      have there := act_inWorld view same crews inputs s w.state w.world
      rw [acted] at there
      exact .visit waiting fresh found there

theorem run_inWorld (crews : List Crew) (inputs : Inputs) (g : Graph) (w : Walk σ) :
    (w.inWorld view).run other crews inputs g =
      ((w.run runner crews inputs g).1.inWorld view, (w.run runner crews inputs g).2) := by
  obtain ⟨visits, trail⟩ := trail_of_run runner crews inputs g w
  generalize w.run runner crews inputs g = ending at trail
  induction trail with
  | ends halt => exact run_of_halt _ _ _ _ (halt.inWorld view same)
  | goesOn round rest ih => exact (run_of_round _ _ _ _ (round.inWorld view same)).trans ih

end CrewFlow.Flow
