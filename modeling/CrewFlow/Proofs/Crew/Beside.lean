import Mathlib
import CrewFlow.Proofs.Crew.AnyOrder
import CrewFlow.Proofs.Crew.Faithful
/-!
# Crews side by side

Crews that run side by side share nothing of which the outcome of a kickoff depends. Whoever moves next, each of
them goes through a schedule that it could have gone through alone, and so it succeeds or fails, and yields, as it
does alone.
-/
set_option autoImplicit false

namespace CrewFlow.Crew

open Kickoff (Step)
open Rate (Allowance)
open Relation (ReflTransGen)
open Text (Inputs)

section Schedules
variable (ask : Answers)

/-- One of several kickoffs makes a step. -/
inductive OneMoves (kickoffs : List Kickoff) : List Kickoff → Prop where
  | one {c : Nat} {k next : Kickoff} (standing : kickoffs[c]? = some k) (step : Step ask k next) :
      OneMoves kickoffs (kickoffs.set c next)

/-- Crews that run side by side come to their outcomes by some schedule. -/
def RunTo (crews : List Crew) (inputs : Inputs) (outcomes : List (Except ExecutionError CrewOutput)) : Prop :=
  ∃ kickoffs, ReflTransGen (OneMoves ask) (crews.map fun crew => Kickoff.start crew inputs) kickoffs ∧
    List.Forall₂ (fun (k : Kickoff) outcome => k.result? = some outcome) kickoffs outcomes

def ComesTo (crew : Crew) (inputs : Inputs) (outcome : Except ExecutionError CrewOutput) : Prop :=
  ∃ k, ReflTransGen (Step ask) (Kickoff.start crew inputs) k ∧ k.result? = some outcome

end Schedules

variable {ask : Answers} {crew : Crew} {crews : List Crew} {inputs : Inputs}

/-! ## Schedules of several crews -/

theorem each_of_oneMoves {kickoffs next : List Kickoff} (moves : ReflTransGen (OneMoves ask) kickoffs next) :
    List.Forall₂ (ReflTransGen (Step ask)) kickoffs next := by
  induction moves with
  | refl => exact List.forall₂_same.mpr fun _ _ => .refl
  | tail _ move ih =>
      cases move with
      | one standing step => exact forall₂_set ih standing fun _ before => before.tail step

theorem oneMoves_of_each {kickoffs next : List Kickoff}
    (each : List.Forall₂ (ReflTransGen (Step ask)) kickoffs next) :
    ReflTransGen (OneMoves ask) kickoffs next := by
  induction each with
  | nil => exact .refl
  | @cons k k' ks ks' first _ ih =>
      have head : ReflTransGen (OneMoves ask) (k :: ks) (k' :: ks) := by
        refine first.lift (fun k => k :: ks) fun _ _ step => ?_
        exact .one (c := 0) rfl step
      have tail : ReflTransGen (OneMoves ask) (k' :: ks) (k' :: ks') := by
        refine ih.lift (fun ks => k' :: ks) fun _ _ move => ?_
        cases move with
        | @one c _ _ standing step => exact .one (c := c + 1) standing step
      exact head.trans tail

/-- Crews that run side by side come to what each of them may come to alone. -/
theorem runTo_iff {outcomes : List (Except ExecutionError CrewOutput)} :
    RunTo ask crews inputs outcomes ↔ List.Forall₂ (ComesTo ask · inputs ·) crews outcomes := by
  have moves : ∀ kickoffs,
      ReflTransGen (OneMoves ask) (crews.map fun crew => Kickoff.start crew inputs) kickoffs ↔
        List.Forall₂ (fun crew k => ReflTransGen (Step ask) (Kickoff.start crew inputs) k) crews kickoffs :=
    fun kickoffs => ⟨fun moves => List.forall₂_map_left_iff.mp (each_of_oneMoves moves),
      fun each => oneMoves_of_each (List.forall₂_map_left_iff.mpr each)⟩
  simp only [RunTo, moves]
  exact forall₂_exists.symm

theorem exists_end_of_oneMoves
    (plain : ∀ crew ∈ crews, (crew.tasks.map (·.name)).Nodup ∧ crew.embedder = none) {kickoffs : List Kickoff}
    (moves : ReflTransGen (OneMoves ask) (crews.map fun crew => Kickoff.start crew inputs) kickoffs) :
    ∃ last outcomes, ReflTransGen (OneMoves ask) kickoffs last ∧
      List.Forall₂ (fun (k : Kickoff) outcome => k.result? = some outcome) last outcomes := by
  -- Each kickoff has come as far as it has by its own steps, from where it can go on to its end.
  have each := List.forall₂_map_left_iff.mp (each_of_oneMoves moves)
  have ends : ∀ k ∈ kickoffs, ∃ outcome last,
      ReflTransGen (Step ask) k last ∧ last.result? = some outcome := by
    intro k member
    obtain ⟨c, inside, rfl⟩ := List.mem_iff_getElem.mp member
    have within : c < crews.length := by rw [each.length_eq]; exact inside
    have started : crews[c] ∈ crews := List.getElem_mem within
    obtain ⟨distinct, forgetful⟩ := plain crews[c] started
    obtain ⟨outs, yield⟩ := exists_yield crews[c] inputs ask
    have comes := kickoff_comes_good distinct forgetful yield
    obtain ⟨last, outcome, goesOn, found⟩ := (comes.of_reached (each.get within inside)).exists_result
    exact ⟨outcome, last, goesOn, found⟩
  obtain ⟨outcomes, through⟩ := exists_forall₂ ends
  obtain ⟨last, goOn, found⟩ := forall₂_exists.mp through
  exact ⟨last, outcomes, oneMoves_of_each goOn, found⟩

/-! ## What a crew comes to -/

section Alone
variable {outcome other : Except ExecutionError CrewOutput}

/-- Whether a crew succeeds, and what it yields, is the same by all its schedules. -/
theorem ComesTo.toOption_eq (distinct : (crew.tasks.map (·.name)).Nodup) (forgetful : crew.embedder = none)
    (first : ComesTo ask crew inputs outcome) (second : ComesTo ask crew inputs other) :
    outcome.toOption = other.toOption := by
  obtain ⟨outs, yield⟩ := exists_yield crew inputs ask
  have comes := kickoff_comes_good distinct forgetful yield
  have good : ∀ {result}, ComesTo ask crew inputs result → Good crew outs result := by
    rintro result ⟨k, reached, found⟩
    exact comes.result_of_reached reached found
  have same := (good first).trans (good second).symm
  exact same

end Alone

/-! ## Runs in time -/

theorem runTo_of_runAll (timeless : Timeline.Timeless crews) {now : Nat} {limiters : Limiters} {rank : Rank}
    {left : Allowance} {ending : Ending} (ended : runAll crews inputs now limiters rank left = some ending) :
    RunTo Agent.reply crews inputs ending.outcomes := by
  obtain ⟨t, faithful, each⟩ := Timeline.kept_of_runAll
    (fun faithful polled => faithful.polled timeless polled) (fun faithful subset => faithful.fewer subset)
    (Timeline.faithful_start now limiters rank left) ended
  rw [runTo_iff, List.forall₂_iff_get]
  refine ⟨faithful.count.symm.trans each.length_eq, fun c inside outside => ?_⟩
  have here : c < t.kickoffs.length := by rw [each.length_eq]; exact outside
  exact ⟨t.kickoffs[c],
    faithful.followed c _ _ (List.getElem?_eq_getElem here) (List.getElem?_eq_getElem inside),
    each.get here outside⟩

end CrewFlow.Crew
