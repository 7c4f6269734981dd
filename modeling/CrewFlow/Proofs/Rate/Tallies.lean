import Mathlib
import CrewFlow.Rate.Limiter
/-!
# Requests counted in windows

Each request is counted in the window of a limiter or opens the next one. No window counts too many, windows
start at least their length apart, and an interval of that length holds no more requests than two windows may
count.
-/
set_option autoImplicit false

namespace CrewFlow.Rate

/-! ## Windows -/

/-- A request has been counted: in the window itself when it was not over and had room, else in a new one
that starts with it. -/
def Window.Counts (most now : Nat) (before after : Window) : Prop :=
  (after = ⟨before.started, before.count + 1⟩ ∧ before.count < most ∧ now < before.started + windowLength) ∨
    (after = ⟨now, 1⟩ ∧ before.started + windowLength ≤ now)

section Windows
variable {w after : Window} {most now ends : Nat}

theorem Window.current_eq (begun : w.started ≤ now) :
    w.current now = if w.started + windowLength ≤ now then ⟨now, 0⟩ else w := by
  unfold Window.current
  by_cases ended : w.started + windowLength ≤ now
  · rw [if_pos ended, if_pos (by omega)]
  · rw [if_neg ended, if_neg (by omega)]

theorem Window.counts_of_granted (begun : w.started ≤ now)
    (granted : w.decide most now = .granted after) : w.Counts most now after := by
  unfold Window.decide at granted
  rw [Window.current_eq begun] at granted
  by_cases ended : w.started + windowLength ≤ now
  · rw [if_pos ended] at granted
    dsimp only at granted
    split at granted
    · cases granted
      exact .inr ⟨rfl, ended⟩
    · cases granted
  · rw [if_neg ended] at granted
    dsimp only at granted
    split at granted
    · next room =>
        cases granted
        exact .inl ⟨rfl, room, by omega⟩
    · cases granted

theorem Window.current_of_full (positive : 1 ≤ most) (begun : w.started ≤ now)
    (full : w.decide most now = .full ends) :
    w.current now = w ∧ ends = w.started + windowLength ∧ now < ends := by
  unfold Window.decide at full
  rw [Window.current_eq begun] at full ⊢
  by_cases ended : w.started + windowLength ≤ now
  · rw [if_pos ended] at full
    dsimp only at full
    rw [if_pos (by omega)] at full
    cases full
  · rw [if_neg ended] at full ⊢
    dsimp only at full
    split at full
    · cases full
    · cases full
      exact ⟨rfl, rfl, by omega⟩

/-- At most two windows that start their length apart reach into an interval of that length. -/
theorem length_le_two_of_apart {starts : List Nat} (since : Nat)
    (apart : starts.Pairwise fun a b => a + windowLength ≤ b)
    (near : ∀ s ∈ starts, since < s + windowLength ∧ s < since + windowLength) : starts.length ≤ 2 := by
  match starts, apart, near with
  | [], _, _ => simp
  | [_], _, _ => simp
  | [_, _], _, _ => simp
  | a :: b :: c :: rest, apart, near =>
      have first : a + windowLength ≤ b := (List.pairwise_cons.mp apart).1 b (by simp)
      have second : b + windowLength ≤ c :=
        (List.pairwise_cons.mp (List.pairwise_cons.mp apart).2).1 c (by simp)
      have low := (near a (by simp)).1
      have high := (near c (by simp)).2
      omega

end Windows

/-! ## Counting in windows -/

/-- A call that was counted: when, and in the window that started when. -/
structure Grant (α : Type) where
  who : α
  time : Nat
  window : Nat
  deriving DecidableEq, Repr

section Counting
variable {α : Type}

/-- The requests that were counted in the window that started at a time. -/
def countedIn (grants : List (Grant α)) (window : Nat) : List (Grant α) :=
  grants.filter fun g => g.window = window

/-- Notes the start of a window, if it is a new one. -/
def noteWindow (windows : List Nat) (w : Window) : List Nat :=
  if windows.getLast? = some w.started then windows else windows ++ [w.started]

/-- Windows that start at these times, with the requests that were counted in them, up to the current one. -/
structure Tallies (most : Nat) (w : Window) (now : Nat) (grants : List (Grant α)) (windows : List Nat) :
    Prop where
  begun : w.started ≤ now
  current : windows.getLast? = some w.started
  apart : windows.Pairwise fun a b => a + windowLength ≤ b
  count : w.count = (countedIn grants w.started).length
  room : ∀ window, (countedIn grants window).length ≤ most
  inside : ∀ g ∈ grants, g.window ∈ windows ∧ g.window ≤ g.time ∧ g.time < g.window + windowLength

variable {most now : Nat} {w after : Window} {grants : List (Grant α)} {windows : List Nat}

theorem tallies_start (most now : Nat) : Tallies most ⟨now, 0⟩ now ([] : List (Grant α)) [now] := by
  constructor <;> simp [countedIn]

theorem Tallies.later (tallies : Tallies most w now grants windows) {time : Nat} (later : now ≤ time) :
    Tallies most w time grants windows :=
  { tallies with begun := tallies.begun.trans later }

theorem Tallies.le_current (tallies : Tallies most w now grants windows) {window : Nat}
    (member : window ∈ windows) : window ≤ w.started := by
  obtain ⟨earlier, whole⟩ := List.getLast?_eq_some_iff.mp tallies.current
  have apart := tallies.apart
  rw [whole] at member apart
  rcases List.mem_append.mp member with before | last
  · have further := (List.pairwise_append.mp apart).2.2 window before _ (List.mem_singleton_self _)
    omega
  · exact (List.mem_singleton.mp last).le

theorem countedIn_append (grants : List (Grant α)) (g : Grant α) (window : Nat) :
    (countedIn (grants ++ [g]) window).length =
      (countedIn grants window).length + if g.window = window then 1 else 0 := by
  rw [countedIn, countedIn, List.filter_append, List.length_append]
  by_cases same : g.window = window <;> simp [same]

theorem Tallies.fill (tallies : Tallies most w now grants windows) (room : w.count < most)
    (running : now < w.started + windowLength) (who : α) :
    Tallies most ⟨w.started, w.count + 1⟩ now (grants ++ [⟨who, now, w.started⟩]) windows := by
  refine ⟨tallies.begun, tallies.current, tallies.apart, ?_, ?_, ?_⟩
  · rw [countedIn_append, if_pos rfl, ← tallies.count]
  · intro window
    rw [countedIn_append]
    have before := tallies.room window
    by_cases same : w.started = window
    · subst same
      have count := tallies.count
      rw [if_pos rfl]
      omega
    · rw [if_neg same]
      omega
  · intro g member
    rcases List.mem_append.mp member with before | here
    · exact tallies.inside g before
    · cases List.mem_singleton.mp here
      exact ⟨List.mem_of_getLast? tallies.current, tallies.begun, running⟩

theorem Tallies.turn (tallies : Tallies most w now grants windows) (positive : 1 ≤ most)
    (ended : w.started + windowLength ≤ now) (who : α) :
    Tallies most ⟨now, 1⟩ now (grants ++ [⟨who, now, now⟩]) (windows ++ [now]) := by
  have older : ∀ window ∈ windows, window + windowLength ≤ now := by
    intro window member
    have before := tallies.le_current member
    omega
  have fresh : countedIn grants now = [] := by
    apply List.filter_eq_nil_iff.mpr
    intro g member
    have before := older g.window (tallies.inside g member).1
    have apart : g.window ≠ now := by
      unfold windowLength at before
      omega
    simpa using apart
  refine ⟨le_rfl, by simp, ?_, ?_, ?_, ?_⟩
  · apply List.pairwise_append.mpr
    refine ⟨tallies.apart, List.pairwise_singleton _ _, ?_⟩
    intro window member start here
    exact (List.mem_singleton.mp here) ▸ older window member
  · rw [countedIn_append, if_pos rfl, fresh, List.length_nil]
  · intro window
    rw [countedIn_append]
    by_cases same : now = window
    · rw [if_pos same, ← same, fresh]
      exact positive
    · rw [if_neg same]
      exact tallies.room window
  · intro g member
    rcases List.mem_append.mp member with before | here
    · obtain ⟨noted, bounds⟩ := tallies.inside g before
      exact ⟨List.mem_append_left _ noted, bounds⟩
    · cases List.mem_singleton.mp here
      exact ⟨by simp, le_rfl, Nat.lt_add_of_pos_right (by decide)⟩

theorem Tallies.counts (tallies : Tallies most w now grants windows) (positive : 1 ≤ most)
    (counts : w.Counts most now after) (who : α) :
    Tallies most after now (grants ++ [⟨who, now, after.started⟩]) (noteWindow windows after) := by
  rcases counts with ⟨rfl, room, running⟩ | ⟨rfl, ended⟩
  · rw [noteWindow, if_pos tallies.current]
    exact tallies.fill room running who
  · have new : windows.getLast? ≠ some now := by
      rw [tallies.current]
      intro same
      have start := Option.some.inj same
      unfold windowLength at ended
      omega
    rw [noteWindow, if_neg new]
    exact tallies.turn positive ended who

theorem length_countedIn_cons (grants : List (Grant α)) (window : Nat) (others : List Nat) :
    (grants.filter fun g => g.window ∈ window :: others).length ≤
      (countedIn grants window).length + (grants.filter fun g => g.window ∈ others).length := by
  have split := List.countP_eq_countP_filter_add grants (fun g => g.window ∈ window :: others)
    fun g => g.window = window
  have here : (countedIn grants window).countP (fun g => g.window ∈ window :: others) ≤
      (countedIn grants window).length := List.countP_le_length
  have elsewhere : (grants.filter fun g => !decide (g.window = window)).countP
      (fun g => g.window ∈ window :: others) ≤ grants.countP fun g => g.window ∈ others := by
    rw [List.countP_filter]
    apply List.countP_mono_left
    intro g _ meets
    have other : (g.window = window ∨ g.window ∈ others) ∧ g.window ≠ window := by simpa using meets
    simpa using other.1.resolve_left other.2
  rw [← List.countP_eq_length_filter, ← List.countP_eq_length_filter, split]
  exact Nat.add_le_add here elsewhere

theorem Tallies.several (tallies : Tallies most w now grants windows) (several : List Nat) :
    (grants.filter fun g => g.window ∈ several).length ≤ several.length * most := by
  induction several with
  | nil => simp
  | cons window others ih =>
      have first := tallies.room window
      have split := length_countedIn_cons grants window others
      rw [List.length_cons, Nat.succ_mul]
      omega

/-- An interval of the length of a window holds no more requests than two windows. -/
theorem Tallies.interval (tallies : Tallies most w now grants windows) (since : Nat) :
    (grants.filter fun g => since ≤ g.time ∧ g.time < since + windowLength).length ≤ 2 * most := by
  let near := windows.filter fun s => since < s + windowLength ∧ s < since + windowLength
  have few : near.length ≤ 2 := by
    apply length_le_two_of_apart since (tallies.apart.filter _)
    intro s member
    simpa using (List.mem_filter.mp member).2
  have within : (grants.filter fun g => since ≤ g.time ∧ g.time < since + windowLength).length ≤
      (grants.filter fun g => g.window ∈ near).length := by
    rw [← List.countP_eq_length_filter, ← List.countP_eq_length_filter]
    apply List.countP_mono_left
    intro g member meets
    obtain ⟨noted, low, high⟩ := tallies.inside g member
    have bounds : since ≤ g.time ∧ g.time < since + windowLength := by simpa using meets
    have close : since < g.window + windowLength ∧ g.window < since + windowLength := by omega
    simpa [near] using ⟨noted, close⟩
  calc (grants.filter fun g => since ≤ g.time ∧ g.time < since + windowLength).length
      ≤ (grants.filter fun g => g.window ∈ near).length := within
    _ ≤ near.length * most := tallies.several near
    _ ≤ 2 * most := Nat.mul_le_mul_right most few

end Counting

end CrewFlow.Rate
