import Mathlib
import CrewFlow.Proofs.Agent.Turns
import CrewFlow.Proofs.Crew.Faithful
/-!
# Waking

Who is awake on a timeline, and how many may still be woken: each turn that is called is one wakening, and so is
each alarm that is set and each actor in line for a lock.
-/
set_option autoImplicit false

namespace CrewFlow.Crew

open Agent.Execution (waitingAt)

namespace Timeline

variable {t next : Timeline} {k : Kickoff} {m m' : Mover} {c : Nat}

def Awake (t : Timeline) (m : Mover) : Prop :=
  m ∈ t.ready ∨ (m = .mains ∧ t.mainReady = true) ∨ m ∈ t.spent

def Called (t : Timeline) (m : Mover) : Prop :=
  if m = .mains ∧ t.rank = .ahead then t.mainReady = true else m ∈ t.ready

def queued (t : Timeline) : Nat :=
  ∑ role ∈ (t.limiters.map Prod.fst).toFinset, waitingAt (t.limiters.lookup role)

def wakes (t : Timeline) : Nat :=
  t.ready.length + t.mainReady.toNat + t.spent.toFinset.card + t.alarms.length + t.queued

/-- Nothing has happened but that some are awake who were not. -/
structure Calm (t next : Timeline) : Prop where
  held : next.held = t.held
  now : next.now = t.now
  limiters : next.limiters = t.limiters
  alarms : next.alarms = t.alarms
  awaited : next.awaited = t.awaited
  awake : ∀ m, t.Awake m → next.Awake m

/-- Up to so many have been woken. -/
structure Roused (t : Timeline) (most : Nat) (next : Timeline) : Prop extends t.Calm next where
  left : next.left = t.left
  noticed : next.noticed = t.noticed
  spent : next.spent = t.spent
  wakes : next.wakes ≤ t.wakes + most

theorem Calm.refl : t.Calm t := ⟨rfl, rfl, rfl, rfl, rfl, fun _ => id⟩

theorem Roused.refl : t.Roused 0 t := ⟨.refl, rfl, rfl, rfl, le_rfl⟩

theorem Roused.trans {last : Timeline} {most more : Nat} (first : t.Roused most next)
    (second : next.Roused more last) : t.Roused (most + more) last := by
  have wakes := first.wakes
  have further := second.wakes
  refine ⟨⟨second.held.trans first.held, second.now.trans first.now,
    second.limiters.trans first.limiters, second.alarms.trans first.alarms,
    second.awaited.trans first.awaited, ?_⟩, second.left.trans first.left,
    second.noticed.trans first.noticed, second.spent.trans first.spent, by omega⟩
  intro m awake
  exact second.awake m (first.awake m awake)

theorem roused_rouse (m : Mover) : t.Roused 1 (t.rouse m) := by
  unfold rouse
  split
  · refine ⟨⟨rfl, rfl, rfl, rfl, rfl, ?_⟩, rfl, rfl, rfl, ?_⟩
    · rintro m' (ready | ⟨main, _⟩ | spent)
      · exact .inl ready
      · exact .inr (.inl ⟨main, rfl⟩)
      · exact .inr (.inr spent)
    · simp only [Timeline.wakes, queued, Bool.toNat_true]
      omega
  · split
    · exact ⟨.refl, rfl, rfl, rfl, Nat.le_succ _⟩
    · refine ⟨⟨rfl, rfl, rfl, rfl, rfl, ?_⟩, rfl, rfl, rfl, ?_⟩
      · rintro m' (ready | main | spent)
        · exact .inl (List.mem_append_left _ ready)
        · exact .inr (.inl main)
        · exact .inr (.inr spent)
      · simp only [Timeline.wakes, queued, List.length_append, List.length_singleton]
        omega

theorem Roused.mono {most more : Nat} (roused : t.Roused most next) (fewer : most ≤ more) :
    t.Roused more next :=
  { roused with wakes := roused.wakes.trans (Nat.add_le_add_left fewer _) }

theorem called_rouse (m : Mover) : (t.rouse m).Called m := by
  unfold rouse
  split
  · next ahead => exact (if_pos ahead).mpr rfl
  · next inLine =>
      split
      · next already => exact (if_neg inLine).mpr (by simpa using already)
      · exact (if_neg inLine).mpr (by simp)

theorem Called.rouse (called : t.Called m) (m' : Mover) : (t.rouse m').Called m := by
  unfold Called at called
  unfold Timeline.rouse
  split
  · split at called
    · next ahead => exact (if_pos ahead).mpr rfl
    · next inLine => exact (if_neg inLine).mpr called
  · split
    · exact called
    · split at called
      · next ahead => exact (if_pos ahead).mpr called
      · next inLine => exact (if_neg inLine).mpr (List.mem_append_left _ called)

theorem Called.awake (called : t.Called m) : t.Awake m := by
  unfold Called at called
  split at called
  · next ahead => exact .inr (.inl ⟨ahead.1, called⟩)
  · exact .inl called

theorem Called.rouse_eq (called : t.Called m) : t.rouse m = t := by
  unfold Called at called
  unfold Timeline.rouse
  split
  · next ahead =>
      rw [if_pos ahead] at called
      rw [← called]
  · next inLine =>
      rw [if_neg inLine] at called
      rw [if_pos (by simpa using called)]

theorem roused_foldl (movers : List Mover) :
    t.Roused movers.toFinset.card (movers.foldl rouse t) ∧
      ∀ m ∈ movers, (movers.foldl rouse t).Called m := by
  induction movers using List.reverseRecOn with
  | nil => exact ⟨.refl, by simp⟩
  | append_singleton movers m ih =>
      obtain ⟨before, called⟩ := ih
      rw [List.foldl_append, List.foldl_cons, List.foldl_nil]
      refine ⟨?_, ?_⟩
      · by_cases already : m ∈ movers
        · rw [(called m already).rouse_eq]
          exact before.mono (Finset.card_le_card (by simp [already]))
        · have new : m ∉ movers.toFinset := by simpa using already
          have count : (movers ++ [m]).toFinset.card = movers.toFinset.card + 1 := by
            rw [List.toFinset_append, Finset.union_comm]
            exact Finset.card_insert_of_notMem new
          rw [count]
          exact before.trans (roused_rouse m)
      · intro other member
        rcases List.mem_append.mp member with old | here
        · exact (called other old).rouse m
        · rw [List.mem_singleton.mp here]
          exact called_rouse m

theorem wakeAll_eq (actors : List Actor) :
    t.wakeAll actors = (actors.map Actor.mover).foldl rouse t := by
  rw [List.foldl_map]
  rfl

theorem roused_wakeAll (actors : List Actor) :
    t.Roused actors.length (t.wakeAll actors) ∧
      ∀ a ∈ actors, (t.wakeAll actors).Awake a.mover := by
  obtain ⟨roused, called⟩ := roused_foldl (t := t) (actors.map Actor.mover)
  rw [wakeAll_eq]
  refine ⟨roused.mono ?_, fun a member => (called _ (List.mem_map_of_mem member)).awake⟩
  exact (List.toFinset_card_le _).trans_eq (List.length_map _)

theorem calm_exhaust (m : Mover) : t.Calm (t.exhaust m) ∧ (t.exhaust m).Awake m := by
  refine ⟨⟨rfl, rfl, rfl, rfl, rfl, ?_⟩, .inr (.inr List.mem_cons_self)⟩
  rintro m' (ready | main | spent)
  · exact .inl ready
  · exact .inr (.inl main)
  · exact .inr (.inr (List.mem_cons_of_mem _ spent))

theorem wakes_exhaust (m : Mover) :
    (t.exhaust m).wakes = t.wakes + if m ∈ t.spent then 0 else 1 := by
  have count : (t.exhaust m).spent.toFinset.card =
      t.spent.toFinset.card + if m ∈ t.spent then 0 else 1 := by
    rw [exhaust, List.toFinset_cons]
    split
    · next already => rw [Finset.insert_eq_of_mem (List.mem_toFinset.mpr already), Nat.add_zero]
    · next new => rw [Finset.card_insert_of_notMem (List.mem_toFinset.not.mpr new)]
  rw [wakes, wakes, count]
  simp only [exhaust, queued]
  omega

theorem calm_of_lookFor {awaits : Option Nat} (looked : t.lookFor c k awaits = some next) :
    t.Calm next := by
  cases awaits with
  | none =>
      cases looked
      exact .refl
  | some j =>
      rw [lookFor] at looked
      unfold look at looked
      split at looked
      · cases looked
        exact .refl
      · split at looked
        · cases looked
        · cases looked
          exact ⟨rfl, rfl, rfl, rfl, rfl, fun _ => id⟩
        · cases looked
          exact .refl

end Timeline

end CrewFlow.Crew
