import Mathlib
import CrewFlow.Proofs.Rate.Lock
import CrewFlow.Proofs.Rate.Tallies
/-!
# Traffic at a limiter

Calls ask for the lock of a limiter at any times; the one that has it tries the window or opens the next
one after its rest, and any call may be given up while it waits. Whatever happens, the calls are counted in
the order in which they asked, no window counts too many, and windows start at least their length apart. No
call is held up by one that was given up: those in line are counted one after the other, with nothing to
wait for but the windows.
-/
set_option autoImplicit false

namespace CrewFlow.Rate

/-! ## What happens at a limiter -/

/-- What happens at a limiter: a call asks for the lock, the call that has the lock tries the window or
opens the next one after its rest, or a call is given up. -/
inductive Act (α : Type) where
  | ask (who : α)
  | attempt
  | reopen
  | giveUp (who : α)
  deriving DecidableEq, Repr

/-- A limiter in use at some time, and until when the call that has the lock rests, if it does. Behind it is
what has happened so far: which calls have asked and when, which were counted, and when each window
started. -/
structure Traffic (α : Type) where
  limiter : Limiter α
  rest : Option Nat
  now : Nat
  asked : List (α × Nat)
  grants : List (Grant α)
  windows : List Nat

/-- Whether something is done by the call that has the lock. -/
def Act.OfHolder {α : Type} : Act α → Prop
  | .attempt | .reopen => True
  | .ask _ | .giveUp _ => False

namespace Traffic

variable {α : Type}

def start (most now : Nat) : Traffic α := ⟨.start most now, none, now, [], [], [now]⟩

/-- The calls that have asked, in their order. -/
def callers (t : Traffic α) : List α := t.asked.map (·.1)

/-- The calls that were counted, in their order. -/
def counted (t : Traffic α) : List α := t.grants.map (·.who)

/-- Nothing happens until a time. -/
def waitUntil (t : Traffic α) (time : Nat) : Traffic α := { t with now := time }

def resting (t : Traffic α) : Traffic α :=
  { t with rest := some (t.limiter.window.started + windowLength) }

/-- A call has been counted, and leaves with the limiter like this. -/
def grant (t : Traffic α) (who : α) (l : Limiter α) : Traffic α :=
  { t with
    limiter := l
    rest := none
    grants := t.grants ++ [⟨who, t.now, l.window.started⟩]
    windows := noteWindow t.windows l.window }

section Running
variable [DecidableEq α]

/-- The traffic after something has happened. A call asks once; only the call that has the lock goes to the
window, and it opens the next one only after its rest; only a call in line can be given up. -/
def act? (t : Traffic α) : Act α → Option (Traffic α)
  | .ask who =>
    if who ∈ t.callers then none
    else some { t with limiter := t.limiter.ask who, asked := t.asked ++ [(who, t.now)] }
  | .attempt =>
    match t.limiter.holder, t.rest with
    | some who, none =>
      match t.limiter.pass t.now with
      | (l, none) => some (t.grant who l)
      | (l, some ends) =>
        some { t with limiter := l, rest := some ends, windows := noteWindow t.windows l.window }
    | _, _ => none
  | .reopen =>
    match t.limiter.holder, t.rest with
    | some who, some ends =>
      if ends ≤ t.now then some (t.grant who (t.limiter.reopen t.now)) else none
    | _, _ => none
  | .giveUp who =>
    if who ∈ t.limiter.line then
      some
        { t with
          limiter := t.limiter.withdraw who
          rest := if t.limiter.holder = some who then none else t.rest }
    else none

/-- The traffic after things have happened one after the other, each at its time. -/
def run? (t : Traffic α) : List (Nat × Act α) → Option (Traffic α)
  | [] => some t
  | (time, act) :: later =>
    if t.now ≤ time then
      match (t.waitUntil time).act? act with
      | some next => next.run? later
      | none => none
    else none

end Running

/-! ## What every run keeps -/

section Runs

/-- What holds of a limiter that is used in any way. -/
structure Orderly (most : Nat) (t : Traffic α) : Prop where
  lock : t.limiter.Sound
  same : t.limiter.most = most
  once : t.callers.Nodup
  inOrder : (t.counted ++ t.limiter.line).Sublist t.callers
  afterAsking : ∀ g ∈ t.grants, ∃ time ≤ g.time, (g.who, time) ∈ t.asked
  asked : ∀ a ∈ t.asked, a.2 ≤ t.now
  tallies : Tallies most t.limiter.window t.now t.grants t.windows
  rests : ∀ ends ∈ t.rest, t.limiter.holder.isSome ∧ ends = t.limiter.window.started + windowLength

variable {most : Nat} {t next : Traffic α} {who : α}

theorem orderly_start (most now : Nat) : (start most now : Traffic α).Orderly most := by
  refine ⟨⟨fun _ => rfl, List.nodup_nil⟩, rfl, List.nodup_nil, List.nil_sublist _, ?_, ?_,
    tallies_start most now, ?_⟩ <;> simp [start]

theorem Orderly.wait (orderly : t.Orderly most) (time : Nat) (later : t.now ≤ time) :
    (t.waitUntil time).Orderly most :=
  { orderly with
    asked := fun a member => (orderly.asked a member).trans later
    tallies := orderly.tallies.later later }

theorem Orderly.subset_callers (orderly : t.Orderly most) : t.limiter.line ⊆ t.callers :=
  ((List.sublist_append_right _ _).trans orderly.inOrder).subset

theorem Orderly.rest (orderly : t.Orderly most) (holds : t.limiter.holder = some who) :
    t.resting.Orderly most :=
  { orderly with
    rests := by
      intro ends member
      cases member
      exact ⟨holds ▸ rfl, rfl⟩ }

theorem Orderly.ask (orderly : t.Orderly most) (new : who ∉ t.callers) :
    { t with limiter := t.limiter.ask who, asked := t.asked ++ [(who, t.now)] }.Orderly most := by
  have callers : (t.asked ++ [(who, t.now)]).map (·.1) = t.callers ++ [who] := by simp [Traffic.callers]
  have sameMost : (t.limiter.ask who).most = t.limiter.most := by
    unfold Limiter.ask
    split <;> rfl
  have sameWindow : (t.limiter.ask who).window = t.limiter.window := by
    unfold Limiter.ask
    split <;> rfl
  refine ⟨orderly.lock.ask fun member => new (orderly.subset_callers member),
    sameMost.trans orderly.same, ?_, ?_, ?_, ?_, sameWindow ▸ orderly.tallies, ?_⟩
  · rw [Traffic.callers, callers, List.nodup_append]
    refine ⟨orderly.once, List.nodup_singleton who, ?_⟩
    intro a member b here same
    exact new (List.mem_singleton.mp here ▸ same ▸ member)
  · rw [Traffic.callers, callers, orderly.lock.line_ask, ← List.append_assoc]
    exact orderly.inOrder.append_right [who]
  · intro g member
    obtain ⟨time, earlier, before⟩ := orderly.afterAsking g member
    exact ⟨time, earlier, List.mem_append_left _ before⟩
  · intro a member
    rcases List.mem_append.mp member with before | here
    · exact orderly.asked a before
    · cases List.mem_singleton.mp here
      exact le_rfl
  · intro ends member
    obtain ⟨held, same⟩ := orderly.rests ends member
    refine ⟨?_, sameWindow ▸ same⟩
    obtain ⟨holder, holds⟩ := Option.isSome_iff_exists.mp held
    simp [Limiter.ask, holds]

variable [DecidableEq α]

theorem Orderly.grant (orderly : t.Orderly most) (positive : 1 ≤ most)
    (holds : t.limiter.holder = some who) {w : Window}
    (counts : t.limiter.window.Counts most t.now w) :
    (t.grant who { t.limiter with window := w }.release).Orderly most := by
  have line : t.limiter.line = who :: t.limiter.queue := by simp [Limiter.line, holds]
  have inLine : who ∈ t.callers := orderly.subset_callers (Limiter.mem_line_of_holder holds)
  refine ⟨(Limiter.departed_release orderly.lock holds w).visited.sound, orderly.same, orderly.once, ?_,
    ?_, orderly.asked, orderly.tallies.counts positive counts who, by simp [Traffic.grant]⟩
  · have inOrder := orderly.inOrder
    rw [line] at inOrder
    change ((t.grants ++ [_]).map Grant.who ++ { t.limiter with window := w }.release.line).Sublist t.callers
    rw [Limiter.line_release, List.map_append, List.append_assoc]
    exact inOrder
  · intro g member
    rcases List.mem_append.mp member with before | here
    · exact orderly.afterAsking g before
    · cases List.mem_singleton.mp here
      obtain ⟨⟨caller, time⟩, asked, same⟩ := List.mem_map.mp inLine
      cases same
      exact ⟨time, orderly.asked _ asked, asked⟩

theorem window_withdraw (l : Limiter α) (who : α) : (l.withdraw who).window = l.window := by
  unfold Limiter.withdraw
  split <;> rfl

theorem line_withdraw {l : Limiter α} (sound : l.Sound) (who : α) :
    (l.withdraw who).line = l.line.filter fun x => x ≠ who := by
  have departed := Limiter.departed_withdraw who sound
  rw [← departed.visited.others]
  apply (List.filter_eq_self.mpr _).symm
  intro x member
  have apart : x ≠ who := fun same => departed.gone (same ▸ member)
  simpa using apart

theorem Orderly.giveUp (orderly : t.Orderly most) (who : α) :
    { t with
      limiter := t.limiter.withdraw who
      rest := if t.limiter.holder = some who then none else t.rest }.Orderly most := by
  have sameMost : (t.limiter.withdraw who).most = t.limiter.most := by
    unfold Limiter.withdraw
    split <;> rfl
  refine ⟨(Limiter.departed_withdraw who orderly.lock).visited.sound, sameMost.trans orderly.same,
    orderly.once, ?_, orderly.afterAsking, orderly.asked, ?_, ?_⟩
  · rw [line_withdraw orderly.lock]
    exact (List.filter_sublist.append_left _).trans orderly.inOrder
  · rw [window_withdraw]
    exact orderly.tallies
  · intro ends member
    rw [window_withdraw]
    by_cases holds : t.limiter.holder = some who
    · rw [if_pos holds] at member
      cases member
    · rw [if_neg holds] at member
      obtain ⟨held, same⟩ := orderly.rests ends member
      exact ⟨by simpa [Limiter.withdraw, holds] using held, same⟩

/-! ## One thing after the other -/

/-- The call that has the lock tries the window: it is counted, or it rests and nothing else changes. -/
theorem Orderly.attempt_cases (orderly : t.Orderly most) (positive : 1 ≤ most)
    (holds : t.limiter.holder = some who) (awake : t.rest = none) :
    (∃ w, t.limiter.window.Counts most t.now w ∧
      t.act? .attempt = some (t.grant who { t.limiter with window := w }.release)) ∨
    (t.now < t.limiter.window.started + windowLength ∧
      t.act? .attempt = some t.resting) := by
  have begun := orderly.tallies.begun
  simp only [act?, holds, awake, Limiter.pass]
  cases decision : t.limiter.window.decide t.limiter.most t.now with
  | granted w =>
      rw [orderly.same] at decision
      exact .inl ⟨w, Window.counts_of_granted begun decision, rfl⟩
  | full ends =>
      rw [orderly.same] at decision
      obtain ⟨same, rfl, later⟩ := Window.current_of_full positive begun decision
      refine .inr ⟨later, ?_⟩
      dsimp only
      rw [same, noteWindow, if_pos orderly.tallies.current, ← holds]
      rfl

theorem Orderly.reopen_eq (orderly : t.Orderly most) (holds : t.limiter.holder = some who) {ends : Nat}
    (rests : t.rest = some ends) (due : ends ≤ t.now) :
    t.limiter.window.Counts most t.now (.opened t.now) ∧
      t.act? .reopen = some (t.grant who { t.limiter with window := .opened t.now }.release) := by
  obtain ⟨-, rfl⟩ := orderly.rests ends rests
  refine ⟨.inr ⟨rfl, due⟩, ?_⟩
  simp only [act?, holds, rests, if_pos due]
  rfl

theorem Orderly.act (orderly : t.Orderly most) (positive : 1 ≤ most) {act : Act α}
    (acted : t.act? act = some next) : next.Orderly most := by
  cases act with
  | ask who =>
      simp only [act?] at acted
      split at acted
      · cases acted
      · next new =>
          cases acted
          exact orderly.ask new
  | attempt =>
      cases holds : t.limiter.holder with
      | none => simp [act?, holds] at acted
      | some who =>
          cases awake : t.rest with
          | some ends => simp [act?, holds, awake] at acted
          | none =>
              rcases orderly.attempt_cases positive holds awake with ⟨w, counts, granted⟩ | ⟨-, rested⟩
              · cases granted.symm.trans acted
                exact orderly.grant positive holds counts
              · cases rested.symm.trans acted
                exact orderly.rest holds
  | reopen =>
      cases holds : t.limiter.holder with
      | none => simp [act?, holds] at acted
      | some who =>
          cases rests : t.rest with
          | none => simp [act?, holds, rests] at acted
          | some ends =>
              by_cases due : ends ≤ t.now
              · obtain ⟨counts, granted⟩ := orderly.reopen_eq holds rests due
                cases granted.symm.trans acted
                exact orderly.grant positive holds counts
              · simp [act?, holds, rests, due] at acted
  | giveUp who =>
      simp only [act?] at acted
      split at acted
      · cases acted
        exact orderly.giveUp who
      · cases acted

theorem Orderly.run (orderly : t.Orderly most) (positive : 1 ≤ most) {acts : List (Nat × Act α)}
    (ran : t.run? acts = some next) : next.Orderly most := by
  induction acts generalizing t with
  | nil =>
      cases ran
      exact orderly
  | cons first later ih =>
      obtain ⟨time, act⟩ := first
      simp only [run?] at ran
      split at ran
      · next forward =>
          split at ran
          · next middle acted => exact ih ((orderly.wait time forward).act positive acted) ran
          · cases ran
      · cases ran

theorem run?_cons {time : Nat} (later : t.now ≤ time) {act : Act α}
    (acted : (t.waitUntil time).act? act = some next) (more : List (Nat × Act α)) :
    t.run? ((time, act) :: more) = next.run? more := by
  rw [run?, if_pos later, acted]

theorem run?_append {acts more : List (Nat × Act α)} {middle : Traffic α}
    (first : t.run? acts = some middle) : t.run? (acts ++ more) = middle.run? more := by
  induction acts generalizing t with
  | nil =>
      cases first
      rfl
  | cons one rest ih =>
      obtain ⟨time, act⟩ := one
      simp only [List.cons_append, run?] at first ⊢
      split
      · next forward =>
          rw [if_pos forward] at first
          split at first
          · next acted => exact ih first
          · cases first
      · next back => simp [back] at first

theorem run?_acquire (free : t.limiter.holder = none) (awake : t.rest = none) (new : who ∉ t.callers) :
    ∃ acts next, t.run? acts = some next ∧ t.limiter.acquire who t.now = (next.limiter, next.now) ∧
      next.counted = t.counted ++ [who] := by
  let arrived : Traffic α :=
    { t with limiter := t.limiter.ask who, asked := t.asked ++ [(who, t.now)] }
  have asked : (t.waitUntil t.now).act? (.ask who) = some arrived := if_neg new
  have holds : arrived.limiter.holder = some who := by simp [arrived, Limiter.ask, free]
  have rests : arrived.rest = none := awake
  have counted (l : Limiter α) (s : Traffic α) (same : s.grants = t.grants) :
      (s.grant who l).counted = t.counted ++ [who] := by
    simp [Traffic.counted, grant, same]
  -- It gets the lock at once and tries. If the window is full, it holds the lock until the window ends.
  cases pass : arrived.limiter.pass t.now with
  | mk l full =>
      cases full with
      | none =>
          have granted : (arrived.waitUntil t.now).act? .attempt = some (arrived.grant who l) := by
            simp only [act?, waitUntil, holds, rests, pass]
            rfl
          refine ⟨[(t.now, .ask who), (t.now, .attempt)], arrived.grant who l, ?_, ?_, counted l _ rfl⟩
          · rw [run?_cons le_rfl asked]
            exact run?_cons (Nat.le_refl arrived.now) granted []
          · rw [Limiter.acquire, pass]
            rfl
      | some ends =>
          let resting : Traffic α :=
            { arrived with
              limiter := l
              rest := some ends
              windows := noteWindow t.windows l.window }
          have rested : (arrived.waitUntil t.now).act? .attempt = some resting := by
            simp only [act?, waitUntil, holds, rests, pass]
            rfl
          have still : l.holder = some who := by
            rw [← holds]
            unfold Limiter.pass at pass
            split at pass
            · cases pass
            · cases pass
              rfl
          have granted : (resting.waitUntil (max t.now ends)).act? .reopen =
              some ((resting.waitUntil (max t.now ends)).grant who (l.reopen (max t.now ends))) := by
            simp only [act?, waitUntil, resting, still]
            exact if_pos (le_max_right t.now ends)
          refine ⟨[(t.now, .ask who), (t.now, .attempt), (max t.now ends, .reopen)],
            (resting.waitUntil (max t.now ends)).grant who (l.reopen (max t.now ends)), ?_, ?_, counted _ _ rfl⟩
          · rw [run?_cons le_rfl asked, run?_cons (Nat.le_refl arrived.now) rested]
            exact run?_cons (le_max_left resting.now ends) granted []
          · rw [Limiter.acquire, pass]
            rfl

/-! ## The line goes on -/

/-- Calls are counted and the rest of the line stays, only by what the calls that have the lock do, and within
so much time. -/
structure Serves (t : Traffic α) (served line : List α) (within : Nat) (next : Traffic α) : Prop where
  acts : ∃ acts : List (Nat × Act α), (∀ a ∈ acts, a.2.OfHolder) ∧ t.run? acts = some next
  counted : next.counted = t.counted ++ served
  line : next.limiter.line = line
  within : next.now ≤ t.now + within

theorem serves_of_grant (acts : List (Nat × Act α)) (all : ∀ a ∈ acts, a.2.OfHolder)
    (time : Nat) {within : Nat} (soon : time ≤ t.now + within) (rest : Option Nat) (w : Window)
    (ran : t.run? acts = some (({ t with rest }.waitUntil time).grant who
      { t.limiter with window := w }.release)) :
    ∃ next, t.Serves [who] t.limiter.queue within next := by
  refine ⟨_, ⟨acts, all, ran⟩, ?_, Limiter.line_release, soon⟩
  change (t.grants ++ [_]).map Grant.who = t.counted ++ [who]
  rw [List.map_append]
  rfl

/-- The call that has the lock is counted before another window is over. -/
theorem Orderly.serves_holder (orderly : t.Orderly most) (positive : 1 ≤ most)
    (holds : t.limiter.holder = some who) :
    ∃ next, t.Serves [who] t.limiter.queue windowLength next := by
  have begun := orderly.tallies.begun
  cases rests : t.rest with
  | none =>
      rcases orderly.attempt_cases positive holds rests with ⟨w, -, granted⟩ | ⟨later, rested⟩
      · apply serves_of_grant [(t.now, .attempt)] (by simp [Act.OfHolder]) t.now (Nat.le_add_right _ _)
          t.rest w
        exact run?_cons le_rfl granted []
      · have ended := (orderly.rest holds).wait (t.limiter.window.started + windowLength) later.le
        obtain ⟨-, granted⟩ := ended.reopen_eq holds rfl le_rfl
        apply serves_of_grant
          [(t.now, .attempt), (t.limiter.window.started + windowLength, .reopen)]
          (by simp [Act.OfHolder]) _ (Nat.add_le_add_right begun _)
          (some (t.limiter.window.started + windowLength))
        have ahead : t.resting.now ≤ t.limiter.window.started + windowLength := later.le
        rw [run?_cons le_rfl rested]
        exact run?_cons ahead granted []
  | some ends =>
      obtain ⟨-, same⟩ := orderly.rests ends rests
      have ended := orderly.wait (max t.now ends) (le_max_left _ _)
      obtain ⟨-, granted⟩ := ended.reopen_eq holds rests (le_max_right _ _)
      apply serves_of_grant [(max t.now ends, .reopen)] (by simp [Act.OfHolder]) (max t.now ends)
        (by omega) t.rest
      exact run?_cons (le_max_left _ _) granted []

/-- All calls in line are counted in their order. -/
theorem Orderly.serves_line (orderly : t.Orderly most) (positive : 1 ≤ most) :
    ∃ next, t.Serves t.limiter.line [] (windowLength * t.limiter.line.length) next := by
  induction count : t.limiter.line.length generalizing t with
  | zero =>
      have empty := List.length_eq_zero_iff.mp count
      exact ⟨t, ⟨[], by simp, rfl⟩, by simp [empty], empty, by simp⟩
  | succ n ih =>
      cases holder : t.limiter.holder with
      | none => simp [Limiter.line, holder, orderly.lock.handed holder] at count
      | some who =>
          have line : t.limiter.line = who :: t.limiter.queue := by simp [Limiter.line, holder]
          obtain ⟨middle, first⟩ := orderly.serves_holder positive holder
          obtain ⟨acts, ofHolder, ran⟩ := first.acts
          have fewer : middle.limiter.line.length = n := by
            rw [first.line]
            rw [line] at count
            exact Nat.succ.inj count
          obtain ⟨next, others⟩ := ih (orderly.run positive ran) fewer
          obtain ⟨more, alsoOfHolder, further⟩ := others.acts
          refine ⟨next, ⟨acts ++ more, ?_, ?_⟩, ?_, others.line, ?_⟩
          · intro a member
            exact (List.mem_append.mp member).elim (ofHolder a) (alsoOfHolder a)
          · rw [run?_append ran]
            exact further
          · rw [others.counted, first.counted, first.line, line, List.append_assoc]
            rfl
          · have soon := first.within
            have sooner := others.within
            rw [Nat.mul_succ]
            omega

end Runs

/-! ## The limit -/

/-- What a limiter does for the calls that come to it. -/
structure Regulated [DecidableEq α] (most : Nat) (t : Traffic α) : Prop where
  once : t.callers.Nodup
  inOrder : t.counted.Sublist t.callers
  afterAsking : ∀ g ∈ t.grants, ∃ time ≤ g.time, (g.who, time) ∈ t.asked
  count : t.limiter.window.count = (countedIn t.grants t.limiter.window.started).length
  few : ∀ window, (countedIn t.grants window).length ≤ most
  last : t.windows.getLast? = some t.limiter.window.started
  apart : t.windows.Pairwise fun a b => a + windowLength ≤ b
  inside : ∀ g ∈ t.grants, g.window ∈ t.windows ∧ g.window ≤ g.time ∧ g.time < g.window + windowLength
  rate : ∀ since,
    (t.grants.filter fun g => since ≤ g.time ∧ g.time < since + windowLength).length ≤ 2 * most
  givenUp : ∀ who next, t.act? (.giveUp who) = some next →
    next.limiter.window = t.limiter.window ∧ next.windows = t.windows ∧ next.grants = t.grants ∧
      next.limiter.line = t.limiter.line.filter fun x => x ≠ who
  goesOn : ∃ next, t.Serves t.limiter.line [] (windowLength * t.limiter.line.length) next

/-- Whatever happens at a limiter: calls are counted in the order in which they asked and not before, no
window counts too many, windows start at least their length apart, every call lies in the window in which it
is counted, and no interval of the length of a window holds more than two windows may count. A call that is
given up leaves the windows as they are, and all that are then in line are counted, in their order, by what
they do themselves. -/
theorem limiter_regulates [DecidableEq α] {most begin : Nat} (positive : 1 ≤ most)
    {acts : List (Nat × Act α)} {t : Traffic α} (ran : (start most begin).run? acts = some t) :
    t.Regulated most := by
  have orderly := (orderly_start most begin).run positive ran
  exact
    { once := orderly.once
      inOrder := (List.sublist_append_left _ _).trans orderly.inOrder
      afterAsking := orderly.afterAsking
      count := orderly.tallies.count
      few := orderly.tallies.room
      last := orderly.tallies.current
      apart := orderly.tallies.apart
      inside := orderly.tallies.inside
      rate := orderly.tallies.interval
      givenUp := by
        intro who next givenUp
        simp only [act?] at givenUp
        split at givenUp
        · cases givenUp
          exact ⟨window_withdraw _ _, rfl, rfl, line_withdraw orderly.lock who⟩
        · cases givenUp
      goesOn := orderly.serves_line positive }

/-- Two calls in a minute: the third rests and is given up with the lock, and the fourth, which had asked
behind it, is counted when the window is over. -/
def rush : List (Nat × Act Nat) :=
  [(0, .ask 0), (0, .attempt), (5, .ask 1), (5, .attempt), (10, .ask 2), (10, .attempt), (20, .ask 3),
    (30000, .giveUp 2), (30000, .attempt), (60000, .reopen)]

def afterRush : Traffic Nat where
  limiter := ⟨2, ⟨60000, 1⟩, none, []⟩
  rest := none
  now := 60000
  asked := [(0, 0), (1, 5), (2, 10), (3, 20)]
  grants := [⟨0, 0, 0⟩, ⟨1, 5, 0⟩, ⟨3, 60000, 60000⟩]
  windows := [0, 60000]

theorem rush_regulated :
    1 ≤ 2 ∧ (start 2 0).run? rush = some afterRush ∧ afterRush.Regulated 2 :=
  ⟨by decide, rfl, limiter_regulates (by decide) (show (start 2 0).run? rush = some afterRush from rfl)⟩

end Traffic

end CrewFlow.Rate
