import Mathlib
import CrewFlow.Proofs.Flow.Trigger
/-!
# Passages of walks

The rounds that lead from one point of a walk to another. Every walk passes on to a point where it halts,
so what holds at each point that it passes holds where it ends.
-/
set_option autoImplicit false

namespace CrewFlow.Flow

open Text (Inputs)

section Passages
variable {σ : Type} (runner : Runner σ) (crews : List Crew) (inputs : Inputs) (g : Graph)

/-- A walk passes from one point to another, with some visits on the way. -/
inductive Passage (w : Walk σ) : List Visit → Walk σ → Prop where
  | here : Passage w [] w
  | further {visits : List Visit} {last next : Walk σ} {visit : Option Visit}
      (earlier : Passage w visits last) (round : Round runner crews inputs g last visit next) :
      Passage w (visits ++ visit.toList) next

end Passages

variable {σ : Type} {runner : Runner σ} {crews : List Crew} {inputs : Inputs} {g : Graph}

theorem Passage.trans {w middle last : Walk σ} {before after : List Visit}
    (first : Passage runner crews inputs g w before middle)
    (second : Passage runner crews inputs g middle after last) :
    Passage runner crews inputs g w (before ++ after) last := by
  induction second with
  | here => simpa using first
  | further earlier round ih =>
      rw [← List.append_assoc]
      exact .further ih round

/-- Going on from a point that a run passes changes nothing of how it ends. -/
theorem Passage.run_eq {w last : Walk σ} {visits : List Visit}
    (passage : Passage runner crews inputs g w visits last) :
    last.run runner crews inputs g = w.run runner crews inputs g := by
  induction passage with
  | here => rfl
  | further earlier round ih => rw [← run_of_round runner crews inputs g round, ih]

/-- What every round preserves holds wherever a walk passes. -/
theorem Passage.preserves {w last : Walk σ} {visits : List Visit}
    (passage : Passage runner crews inputs g w visits last) (kept : List Visit → Walk σ → Prop)
    (initial : kept [] w)
    (step : ∀ before w visit next, kept before w → Round runner crews inputs g w visit next →
      kept (before ++ visit.toList) next) : kept visits last := by
  induction passage with
  | here => exact initial
  | further earlier round ih => exact step _ _ _ _ ih round

theorem Trail.exists_passage {w : Walk σ} {visits : List Visit} {ending : Walk σ × Option ExecutionError}
    (trail : Trail runner crews inputs g w visits ending) :
    ∃ last, Passage runner crews inputs g w visits last ∧ Halt runner crews inputs g last ending := by
  induction trail with
  | ends halt => exact ⟨_, .here, halt⟩
  | @goesOn w next visit visits ending round rest ih =>
      obtain ⟨last, passage, halt⟩ := ih
      exact ⟨last, (Passage.further .here round).trans passage, halt⟩

/-- Every run passes on to a point where it halts. -/
theorem exists_halt (runner : Runner σ) (crews : List Crew) (inputs : Inputs) (g : Graph) (w : Walk σ) :
    ∃ visits last, Passage runner crews inputs g w visits last ∧
      Halt runner crews inputs g last (w.run runner crews inputs g) := by
  obtain ⟨visits, trail⟩ := trail_of_run runner crews inputs g w
  exact ⟨visits, trail.exists_passage⟩

/-! ## Saved states -/

theorem Halt.saved_eq {w : Walk σ} {ending : Walk σ × Option ExecutionError}
    (halt : Halt runner crews inputs g w ending) : ending.1.saved = w.saved := by
  cases halt <;> rfl

theorem Round.saved_prefix {w next : Walk σ} {visit : Option Visit}
    (round : Round runner crews inputs g w visit next) : w.saved <+: next.saved := by
  cases round with
  | leaveOut waiting done => exact List.prefix_rfl
  | visit waiting fresh found acted => exact List.prefix_append _ _

theorem Trail.saved_prefix {w : Walk σ} {visits : List Visit} {ending : Walk σ × Option ExecutionError}
    (trail : Trail runner crews inputs g w visits ending) : w.saved <+: ending.1.saved := by
  induction trail with
  | ends halt => exact halt.saved_eq ▸ List.prefix_rfl
  | goesOn round rest ih => exact round.saved_prefix.trans ih

end CrewFlow.Flow
