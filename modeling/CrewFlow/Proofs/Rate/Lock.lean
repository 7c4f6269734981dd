import Mathlib
import CrewFlow.Rate.Limiter
/-!
# The lock of a limiter

Those who have asked for the lock of a limiter stand in line: first the one who holds it, then those who
wait. A client is in the line once, and the line goes on as long as there is anybody in it.
-/
set_option autoImplicit false

namespace CrewFlow.Rate

/-! ## News -/

section News
variable {β : Type} [DecidableEq β]

def news (before after : Option β) : Nat :=
  if after = none ∨ after = before then 0 else 1

theorem news_trans (a b c : Option β) :
    news a c ≤ news a b + news b c := by
  unfold news
  by_cases free : c = none ∨ c = a
  · rw [if_pos free]
    exact Nat.zero_le _
  · rw [if_neg free]
    by_cases same : c = b
    · subst same
      rw [if_neg free]
      omega
    · have further : ¬(c = none ∨ c = b) := fun either => either.elim (free ∘ .inl) same
      rw [if_neg further]
      omega

@[simp]
theorem news_self (a : Option β) : news a a = 0 := by
  simp [news]

theorem news_le_one (a b : Option β) : news a b ≤ 1 := by
  unfold news
  split <;> omega

end News

namespace Limiter

variable {α : Type} [DecidableEq α] {l : Limiter α} {who : α}

/-- Those who have asked for the lock: the holder, then the queue. -/
def line (l : Limiter α) : List α := l.holder.toList ++ l.queue

/-- Nobody waits for a lock that is free, and nobody is in the line twice. -/
structure Sound (l : Limiter α) : Prop where
  handed : l.holder = none → l.queue = []
  once : l.line.Nodup

omit [DecidableEq α] in
theorem mem_line_of_holder (holds : l.holder = some who) : who ∈ l.line := by simp [line, holds]

/-! ## Asking -/

omit [DecidableEq α] in
theorem Sound.line_ask (sound : l.Sound) : (l.ask who).line = l.line ++ [who] := by
  unfold ask line
  cases holder : l.holder with
  | none => simp [sound.handed holder]
  | some other => simp

omit [DecidableEq α] in
theorem Sound.ask (sound : l.Sound) (new : who ∉ l.line) : (l.ask who).Sound := by
  refine ⟨?_, ?_⟩
  · intro free
    unfold Limiter.ask at free
    split at free
    · cases free
    · next other held => cases held.symm.trans free
  · rw [sound.line_ask, List.nodup_append]
    refine ⟨sound.once, List.nodup_singleton who, ?_⟩
    intro a member b here same
    rw [List.mem_singleton] at here
    exact new (here ▸ same ▸ member)

theorem waiting_ask : (l.ask who).queue.length + news l.holder (l.ask who).holder ≤
    l.queue.length + 1 := by
  unfold ask
  cases holder : l.holder with
  | none =>
      have once := news_le_one none (some who)
      dsimp only
      omega
  | some other => simp

/-! ## Leaving -/

omit [DecidableEq α] in
theorem line_release : l.release.line = l.queue := by
  unfold release line
  cases l.queue <;> rfl

/-- A client has been at the lock, and the others stand in line as before. -/
structure Visited (who : α) (before after : Limiter α) : Prop where
  sound : after.Sound
  others : (after.line.filter fun x => x ≠ who) = before.line.filter fun x => x ≠ who
  kept : ∀ x, x ≠ who → before.holder = some x → after.holder = some x

theorem visited_ask (sound : l.Sound) (new : who ∉ l.line) : Visited who l (l.ask who) := by
  refine ⟨sound.ask new, ?_, ?_⟩
  · rw [sound.line_ask, List.filter_append]
    simp
  · intro x _ holds
    simp [ask, holds]

/-- A client has left with a request counted. -/
structure Departed (who : α) (before after : Limiter α) : Prop where
  visited : Visited who before after
  gone : who ∉ after.line
  handed : after.queue.length + news before.holder after.holder ≤ before.queue.length

theorem departed_release (sound : l.Sound) (holds : l.holder = some who) (w : Window) :
    Departed who l { l with window := w }.release := by
  have line : l.line = who :: l.queue := by simp [Limiter.line, holds]
  have once := sound.once
  rw [line, List.nodup_cons] at once
  have after : { l with window := w }.release.line = l.queue := line_release
  refine ⟨⟨⟨?_, ?_⟩, ?_, ?_⟩, ?_, ?_⟩
  · intro free
    unfold release at free ⊢
    rw [List.head?_eq_none_iff.mp free]
    rfl
  · rw [after]
    exact once.2
  · rw [after, line]
    simp
  · intro x other held
    exact absurd (Option.some.inj (held.symm.trans holds)) other
  · rw [after]
    exact once.1
  · unfold release
    cases queue : l.queue with
    | nil => simp [news]
    | cons next rest =>
        have once := news_le_one l.holder (some next)
        simpa using once

theorem departed_withdraw (who : α) (sound : l.Sound) : Departed who l (l.withdraw who) := by
  unfold withdraw
  split
  · next holds => exact departed_release sound holds l.window
  · next waits =>
      have line : { l with queue := l.queue.filter fun x => x ≠ who }.line =
          l.holder.toList ++ l.queue.filter fun x => x ≠ who := rfl
      refine ⟨⟨⟨?_, ?_⟩, ?_, fun _ _ => id⟩, ?_, ?_⟩
      · intro free
        exact List.filter_eq_nil_iff.mpr (by simp [sound.handed free])
      · exact sound.once.sublist (List.filter_sublist.append_left _)
      · rw [line, Limiter.line, List.filter_append, List.filter_append, List.filter_filter]
        simp
      · rw [line, List.mem_append]
        rintro (holds | queued)
        · exact waits (Option.mem_toList.mp holds)
        · simp at queued
      · rw [news_self, Nat.add_zero]
        exact List.length_filter_le ..

/-- The holder of the lock is counted and leaves, or learns when the window will be over. -/
theorem pass_cases (now : Nat) (sound : l.Sound) (holds : l.holder = some who) :
    (∃ after, l.pass now = (after, none) ∧ Departed who l after) ∨
    ∃ after ends, l.pass now = (after, some ends) ∧ now < ends ∧ Visited who l after ∧
      after.holder = some who ∧ after.queue = l.queue := by
  unfold pass
  cases admission : l.window.decide l.most now with
  | granted w => exact .inl ⟨_, rfl, departed_release sound holds w⟩
  | full ends =>
      refine .inr ⟨_, ends, rfl, ?_, ⟨⟨sound.handed, sound.once⟩, rfl, fun _ _ => id⟩,
        holds, rfl⟩
      unfold Window.decide at admission
      dsimp only at admission
      split at admission
      · cases admission
      · cases admission
        unfold Window.current
        split
        · simp [windowLength]
        · omega

end Limiter

end CrewFlow.Rate
