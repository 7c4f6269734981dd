import Mathlib
import CrewFlow.Proofs.Agent.Untimed
import CrewFlow.Proofs.Rate.Lock
/-!
# Turns of an execution

Where an execution stands with the limiter of its agent after a turn, and what the turn has cost. An
execution that waits with its turn unspent waits for a time that is still to come, or for the lock. All
that it may ever wait for is paid from what it has at its start.
-/
set_option autoImplicit false

namespace CrewFlow.Agent

open Rate (Allowance Limiter news news_trans news_self news_le_one)

namespace Execution

variable {α : Type} [DecidableEq α]

/-! ## In line -/

def lineOf (l : Option (Limiter α)) : List α := l.elim [] Limiter.line

def holderOf (l : Option (Limiter α)) : Option α := l.bind Limiter.holder

def waitingAt (l : Option (Limiter α)) : Nat := l.elim 0 fun l => l.queue.length

/-- An execution is in line when it has asked for the lock, and has the lock when it waits for a window;
else it is not in line. -/
def Stands (l : Option (Limiter α)) (e : Execution α) : Prop :=
  match e.stage with
  | .queued => e.who ∈ lineOf l
  | .resting _ => holderOf l = some e.who
  | .arriving => e.who ∉ lineOf l
  | .calling .. => e.who ∉ lineOf l

def Rests (now : Nat) (l : Option (Limiter α)) (e : Execution α) : Prop :=
  match e.stage with
  | .queued => holderOf l ≠ some e.who
  | .resting ends => now < ends
  | .arriving => False
  | .calling ends _ => now < ends

def fare : Nat := Allowance.full

def toll : Stage → Nat
  | .arriving => 3 * fare + 3
  | .queued => 2 * fare + 3
  | .resting _ => fare + 2
  | .calling .. => 1

def purse (e : Execution α) : Nat := (3 * fare + 3) * e.dialogue.left + toll e.stage

/-- What a client has made of a limiter and of an allowance, and the most that it has cost: a fare for
each who waits or is handed the lock, and every wait that has ended. -/
structure Passage (who : α) (l : Option (Limiter α)) (left : Nat) (l' : Option (Limiter α))
    (left' : Nat) (cost : Nat) : Prop where
  sound : ∀ x ∈ l', x.Sound
  same : l'.isSome = l.isSome
  others : ((lineOf l').filter fun x => x ≠ who) = (lineOf l).filter fun x => x ≠ who
  kept : ∀ x, x ≠ who → holderOf l = some x → holderOf l' = some x
  within : left' ≤ left
  paid : fare * (waitingAt l' + news (holderOf l) (holderOf l')) + left ≤
    fare * waitingAt l + left' + cost

variable {who : α} {l l' l'' : Option (Limiter α)} {left left' left'' : Nat} {cost more : Nat}

theorem Passage.refl (sound : ∀ x ∈ l, x.Sound) : Passage who l left l left 0 :=
  ⟨sound, rfl, rfl, fun _ _ => id, le_rfl, by simp⟩

theorem Passage.trans (first : Passage who l left l' left' cost)
    (second : Passage who l' left' l'' left'' more) : Passage who l left l'' left'' (cost + more) := by
  refine ⟨second.sound, second.same.trans first.same, second.others.trans first.others, ?_,
    second.within.trans first.within, ?_⟩
  · intro x other holds
    exact second.kept x other (first.kept x other holds)
  · have through := news_trans (holderOf l) (holderOf l') (holderOf l'')
    have paid := first.paid
    have further := second.paid
    simp only [fare, Allowance.full] at *
    omega

variable {e : Execution α} {now : Nat}

theorem Passage.mem_lineOf (passage : Passage who l left l' left' cost) {x : α} (apart : x ≠ who) :
    x ∈ lineOf l' ↔ x ∈ lineOf l := by
  have same := congrArg (x ∈ ·) passage.others
  simpa [List.mem_filter, apart] using same

theorem Stands.of_passage (stands : Stands l e) (passage : Passage who l left l' left' cost)
    (apart : e.who ≠ who) : Stands l' e := by
  unfold Stands at stands ⊢
  split
  · next stage =>
      rw [stage] at stands
      exact (passage.mem_lineOf apart).mpr stands
  · next stage =>
      rw [stage] at stands
      exact passage.kept _ apart stands
  · next stage =>
      rw [stage] at stands
      exact fun member => stands ((passage.mem_lineOf apart).mp member)
  · next stage =>
      rw [stage] at stands
      exact fun member => stands ((passage.mem_lineOf apart).mp member)

/-! ## At the limiter -/

/-- A request has to stop at the limiter. -/
structure Halted (now : Nat) (l : Option (Limiter α)) (left : Nat) (e : Execution α)
    (l' : Option (Limiter α)) (left' : Nat) (halt : Halt) : Prop where
  passage : ∃ cost, Passage e.who l left l' left' cost ∧
    cost + fare * news e.stage.ends? halt.stage.ends? + toll halt.stage ≤ toll e.stage
  stands : Stands l' { e with stage := halt.stage }
  spent : halt.isSpent = true → left' = 0
  rests : halt.isSpent = false → Rests now l' { e with stage := halt.stage }

/-- A request has passed the limiter, and can pay for the model. -/
structure Passed (l : Option (Limiter α)) (left : Nat) (e : Execution α)
    (l' : Option (Limiter α)) (left' : Nat) : Prop where
  passage : ∃ cost, Passage e.who l left l' left' cost ∧ cost + fare + 1 ≤ toll e.stage
  gone : e.who ∉ lineOf l'

theorem passage_of_visited {l l' : Limiter α} (visited : Limiter.Visited who l l')
    (within : left' ≤ left)
    (paid : fare * (l'.queue.length + news l.holder l'.holder) + left ≤
      fare * l.queue.length + left' + cost) : Passage who (some l) left (some l') left' cost := by
  refine ⟨?_, rfl, visited.others, visited.kept, within, paid⟩
  intro x same
  cases same
  exact visited.sound

theorem passage_ask {l : Limiter α} (sound : l.Sound) (new : who ∉ l.line) :
    Passage who (some l) left (some (l.ask who)) left fare := by
  have waiting := @Limiter.waiting_ask _ _ l who
  refine passage_of_visited (Limiter.visited_ask sound new) le_rfl ?_
  simp only [fare, Allowance.full]
  omega

theorem passage_of_departed {l l' : Limiter α} (departed : Limiter.Departed who l l') :
    Passage who (some l) (left + 1) (some l') left 1 := by
  have handed := departed.handed
  refine passage_of_visited departed.visited (Nat.le_succ left) ?_
  simp only [fare, Allowance.full]
  omega

/-- To give up costs nothing. -/
theorem passage_withdraw {l : Limiter α} (sound : l.Sound) :
    Passage who (some l) left (some (l.withdraw who)) left 0 := by
  have departed := Limiter.departed_withdraw who sound
  refine passage_of_visited departed.visited le_rfl ?_
  have handed := Nat.mul_le_mul_left fare departed.handed
  omega

def tryLock (l : Limiter α) (e : Execution α) (now left : Nat) : Limiter α × Allowance × Option Halt :=
  if l.holder = some e.who then
    let (l, halt) := pass l now left
    (l, left, halt)
  else (l, left + 1, some ⟨.queued, false⟩)

theorem tryLock_cases (now left : Nat) {l : Limiter α} {before : Option (Limiter α)}
    (passage : Passage e.who before (left + 1) (some l) (left + 1) cost)
    (pays : cost + 2 * fare + 3 ≤ toll e.stage) (timeless : e.stage.ends? = none)
    (inLine : e.who ∈ l.line) :
    (∃ l' left', tryLock l e now left = (l', left', none) ∧
      Passed before (left + 1) e (some l') left') ∨
    ∃ l' left' halt, tryLock l e now left = (l', left', some halt) ∧
      Halted now before (left + 1) e (some l') left' halt := by
  have sound : l.Sound := passage.sound l rfl
  unfold tryLock
  by_cases holds : l.holder = some e.who
  · rw [if_pos holds]
    unfold pass
    rcases Limiter.pass_cases now sound holds with
      ⟨after, passed, departed⟩ | ⟨after, ends, full, later, visited, still, same⟩
    · rw [passed]
      refine .inl ⟨after, left, rfl, ⟨_, passage.trans (passage_of_departed departed), ?_⟩,
        departed.gone⟩
      omega
    · rw [full]
      refine .inr ⟨after, left, _, rfl, ⟨cost + 1, ?_, ?_⟩, still, ?_, ?_⟩
      · refine passage.trans (passage_of_visited visited (Nat.le_succ left) ?_)
        rw [same, still, holds, news_self, Nat.add_zero]
        omega
      · have once := news_le_one none (some ends)
        rw [timeless]
        change cost + 1 + fare * news none (some ends) + (fare + 2) ≤ toll e.stage
        simp only [fare, Allowance.full] at *
        omega
      · intro spent
        simpa using spent
      · intro _
        exact later
  · rw [if_neg holds]
    refine .inr ⟨l, left + 1, _, rfl, ⟨cost, passage, ?_⟩, inLine, by simp, ?_⟩
    · rw [timeless]
      exact pays
    · intro _
      exact holds

theorem enter_of_arriving {l : Limiter α} (stage : e.stage = .arriving) :
    enter l e now (left + 1) = tryLock (l.ask e.who) e now left := by
  simp only [enter, stage]
  rfl

theorem enter_of_queued {l : Limiter α} (stage : e.stage = .queued) :
    enter l e now (left + 1) = tryLock l e now left := by
  simp only [enter, stage]
  rfl

theorem passLimiter_cases (now left : Nat) (sound : ∀ x ∈ l, x.Sound) (stands : Stands l e)
    (uncalled : ∀ ends outcome, e.stage ≠ .calling ends outcome) :
    (∃ l' left', passLimiter l e now left = (l', left', none) ∧ Passed l left e l' left') ∨
    ∃ l' left' halt, passLimiter l e now left = (l', left', some halt) ∧
      Halted now l left e l' left' halt := by
  cases l with
  | none =>
      -- Without a limiter there is no line in which to be queued, nor a lock to hold while resting.
      refine .inl ⟨none, left, rfl, ⟨0, .refl sound, ?_⟩, by simp [lineOf]⟩
      cases stage : e.stage with
      | arriving => simp only [toll, fare, Allowance.full]; omega
      | queued => simp [Stands, stage, lineOf] at stands
      | resting ends => simp [Stands, stage, holderOf] at stands
      | calling ends outcome => exact absurd stage (uncalled ends outcome)
  | some l =>
      have lock : l.Sound := sound l rfl
      unfold passLimiter
      dsimp only
      cases left with
      | zero =>
          refine .inr ⟨some l, 0, _, rfl, ⟨0, .refl sound, ?_⟩, stands, fun _ => rfl, by simp⟩
          simp
      | succ left =>
          cases stage : e.stage with
          | arriving =>
              have new : e.who ∉ l.line := by simpa [Stands, stage, lineOf] using stands
              have inLine : e.who ∈ (l.ask e.who).line := by simp [lock.line_ask]
              have pays : fare + 2 * fare + 3 ≤ toll e.stage := by rw [stage, toll]; omega
              rcases tryLock_cases now left (passage_ask lock new) pays (by rw [stage]; rfl)
                inLine with ⟨l', left', tried, passed⟩ | ⟨l', left', halt, tried, halted⟩
              · rw [enter_of_arriving stage, tried]
                exact .inl ⟨some l', left', rfl, passed⟩
              · rw [enter_of_arriving stage, tried]
                exact .inr ⟨some l', left', halt, rfl, halted⟩
          | queued =>
              have inLine : e.who ∈ l.line := by simpa [Stands, stage, lineOf] using stands
              have pays : 0 + 2 * fare + 3 ≤ toll e.stage := by rw [stage, toll]; omega
              rcases tryLock_cases now left (.refl sound) pays (by rw [stage]; rfl)
                inLine with ⟨l', left', tried, passed⟩ | ⟨l', left', halt, tried, halted⟩
              · rw [enter_of_queued stage, tried]
                exact .inl ⟨some l', left', rfl, passed⟩
              · rw [enter_of_queued stage, tried]
                exact .inr ⟨some l', left', halt, rfl, halted⟩
          | resting ends =>
              by_cases due : ends ≤ now
              · have departed : Limiter.Departed e.who l (l.reopen now) :=
                  Limiter.departed_release lock (by simpa [Stands, stage, holderOf] using stands) _
                refine .inl ⟨some (l.reopen now), left, ?_, ⟨1, passage_of_departed departed, ?_⟩,
                  departed.gone⟩
                · simp only [enter, stage, if_pos due]
                · rw [stage, toll]
                  omega
              · refine .inr ⟨some l, left + 1, ⟨.resting ends, false⟩, ?_, ⟨0, .refl sound, ?_⟩, ?_,
                  by simp, ?_⟩
                · simp only [enter, stage, if_neg due]
                · simp [stage]
                · simpa [Stands, stage] using stands
                · intro _
                  exact Nat.lt_of_not_le due
          | calling ends outcome => exact absurd stage (uncalled ends outcome)

/-! ## One request -/

/-- An execution waits, and can pay for what is still to come. -/
structure Waited (now : Nat) (l : Option (Limiter α)) (left : Nat) (e : Execution α)
    (l' : Option (Limiter α)) (left' : Nat) (e' : Execution α) (isSpent : Bool) : Prop where
  who : e'.who = e.who
  passage : ∃ cost, Passage e.who l left l' left' cost ∧
    cost + fare * news e.stage.ends? e'.stage.ends? + purse e' ≤ purse e
  stands : Stands l' e'
  spent : isSpent = true → left' = 0
  rests : isSpent = false → Rests now l' e'

/-- A request has been answered, and the execution is not in line any more. -/
structure Served (l : Option (Limiter α)) (left : Nat) (e : Execution α) (l' : Option (Limiter α))
    (left' : Nat) (e' : Execution α) : Prop where
  who : e'.who = e.who
  dialogue : e'.dialogue = e.dialogue
  passage : ∃ cost, Passage e.who l left l' left' cost ∧
    cost + (3 * fare + 3) * e.dialogue.left ≤ purse e
  gone : e.who ∉ lineOf l'

theorem request_cases (now left : Nat) (sound : ∀ x ∈ l, x.Sound) (stands : Stands l e) :
    (∃ l' left' e' outcome, request l e now left = (l', left', e', .answered outcome) ∧
      Served l left e l' left' e') ∨
    ∃ l' left' e' isSpent, request l e now left = (l', left', e', .stopped isSpent) ∧
      Waited now l left e l' left' e' isSpent := by
  by_cases calls : ∃ ends outcome, e.stage = .calling ends outcome
  · obtain ⟨ends, outcome, calling⟩ := calls
    have gone : e.who ∉ lineOf l := by simpa [Stands, calling] using stands
    cases left with
    | zero =>
        refine .inr ⟨l, 0, e, true, by simp only [request, calling], rfl, ⟨0, .refl sound, ?_⟩, stands,
          fun _ => rfl, by simp⟩
        simp
    | succ left =>
        by_cases due : ends ≤ now
        · refine .inl ⟨l, left, e, outcome, ?_, rfl, rfl, ⟨1, ?_, ?_⟩, gone⟩
          · simp only [request, calling, if_pos due]
          · exact ⟨sound, rfl, rfl, fun _ _ => id, Nat.le_succ left, by simp; omega⟩
          · rw [purse, calling, toll]
            omega
        · refine .inr ⟨l, left + 1, e, false, ?_, rfl, ⟨0, .refl sound, ?_⟩, stands, by simp, ?_⟩
          · simp only [request, calling, if_neg due]
          · simp
          · intro _
            simp only [Rests, calling]
            exact Nat.lt_of_not_le due
  · have uncalled : ∀ ends outcome, e.stage ≠ .calling ends outcome :=
      fun ends outcome calling => calls ⟨ends, outcome, calling⟩
    rw [request_eq_of_uncalled l uncalled]
    rcases passLimiter_cases now left sound stands uncalled with
      ⟨l', left', passes, passed⟩ | ⟨l', left', halt, stops, halted⟩
    · rw [passes]
      obtain ⟨cost, passage, pays⟩ := passed.passage
      dsimp only
      by_cases atOnce : (e.agent.model.respond e.dialogue.request).delay = 0
      · rw [if_pos atOnce]
        refine .inl ⟨l', left', _, _, rfl, rfl, rfl, ⟨cost, passage, ?_⟩, passed.gone⟩
        rw [purse]
        omega
      · rw [if_neg atOnce]
        refine .inr ⟨l', left', _, _, rfl, rfl, ⟨cost, passage, ?_⟩, passed.gone, by simp, ?_⟩
        · rw [purse, purse]
          have once := news_le_one e.stage.ends?
            (some (now + (e.agent.model.respond e.dialogue.request).delay))
          simp only [Stage.ends?, toll, fare, Allowance.full] at *
          omega
        · intro _
          exact Nat.lt_add_of_pos_right (Nat.pos_of_ne_zero atOnce)
    · rw [stops]
      obtain ⟨cost, passage, pays⟩ := halted.passage
      refine .inr ⟨l', left', _, _, rfl, rfl, ⟨cost, passage, ?_⟩, halted.stands, halted.spent,
        halted.rests⟩
      rw [purse, purse]
      dsimp only
      omega

/-! ## One turn -/

theorem Waited.after {e' e'' : Execution α} {isSpent : Bool} (served : Served l left e l' left' e')
    (goesOn : purse e'' ≤ (3 * fare + 3) * e.dialogue.left) (arriving : e''.stage = .arriving)
    (same : e''.who = e.who) {next : Execution α}
    (waited : Waited now l' left' e'' l'' left'' next isSpent) :
    Waited now l left e l'' left'' next isSpent := by
  obtain ⟨cost, passage, pays⟩ := served.passage
  obtain ⟨more, further, remains⟩ := waited.passage
  rw [same] at further
  refine ⟨waited.who.trans same, ⟨_, passage.trans further, ?_⟩, waited.stands, waited.spent,
    waited.rests⟩
  have fresh : news e.stage.ends? next.stage.ends? ≤ news e''.stage.ends? next.stage.ends? := by
    rw [arriving]
    unfold news
    split
    · exact Nat.zero_le _
    · next news =>
        rw [if_neg (fun none => news (.inl (none.elim id id)))]
  simp only [fare, Allowance.full] at *
  omega

/-- The execution is over, and has paid for what it has cost. -/
structure Over (l : Option (Limiter α)) (left : Nat) (e : Execution α) (l' : Option (Limiter α))
    (left' : Nat) : Prop where
  passage : ∃ cost, Passage e.who l left l' left' cost ∧ cost ≤ purse e
  gone : e.who ∉ lineOf l'

omit [DecidableEq α] in
theorem again_of_answered {e' : Execution α} {outcome : Except String String}
    (again : e.answered outcome = .inr e') :
    e'.who = e.who ∧ e'.stage = .arriving ∧ e.dialogue.left = e'.dialogue.left + 1 := by
  unfold answered at again
  split at again
  · cases again
  · split at again
    · cases again
    · next turn =>
        cases again
        have fewer := Dialogue.requestsLeft_of_again turn
        exact ⟨rfl, rfl, Nat.succ.inj fewer⟩

theorem proceed_cases (n : Nat) (enough : e.dialogue.requestsLeft ≤ n) (sound : ∀ x ∈ l, x.Sound)
    (stands : Stands l e) :
    (∃ result, (proceed now n l left e).outcome = .finished result ∧
      Over l left e (proceed now n l left e).limiter (proceed now n l left e).left) ∨
    ∃ next isSpent, (proceed now n l left e).outcome = .waiting next isSpent ∧
      Waited now l left e (proceed now n l left e).limiter (proceed now n l left e).left next
        isSpent := by
  induction n generalizing e l left with
  | zero => cases enough
  | succ n ih =>
      rw [proceed]
      rcases request_cases now left sound stands with
        ⟨l', left', e', outcome, reached, served⟩ | ⟨l', left', e', isSpent, reached, waited⟩
      · rw [reached]
        dsimp only
        obtain ⟨cost, passage, pays⟩ := served.passage
        cases turn : e'.answered outcome with
        | inl result =>
            dsimp only
            exact .inl ⟨result, rfl, ⟨cost, passage, by omega⟩, served.gone⟩
        | inr e'' =>
            obtain ⟨who, arriving, fewer⟩ := again_of_answered turn
            rw [served.who] at who
            rw [served.dialogue] at fewer
            have goesOn : purse e'' ≤ (3 * fare + 3) * e.dialogue.left := by
              rw [purse, arriving, toll, fewer, Nat.mul_succ]
            have line : Stands l' e'' := by
              rw [Stands, arriving, who]
              exact served.gone
            have fewerLeft : e''.dialogue.requestsLeft ≤ n := by
              rw [Dialogue.requestsLeft] at enough ⊢
              omega
            rcases ih fewerLeft passage.sound line with
              ⟨result, ended, done⟩ | ⟨next, isSpent, waits, waited⟩
            · obtain ⟨more, further, least⟩ := done.passage
              rw [who] at further
              refine .inl ⟨result, ended, ⟨_, passage.trans further, ?_⟩, who ▸ done.gone⟩
              omega
            · exact .inr ⟨next, isSpent, waits, .after served goesOn arriving who waited⟩
      · rw [reached]
        exact .inr ⟨e', isSpent, rfl, waited⟩

theorem advance_cases {answer : Except String String} (leads : e.Leads answer) (now left : Nat)
    (sound : ∀ x ∈ l, x.Sound) (stands : Stands l e) :
    (∃ result, (advance now l left e).outcome = .finished result ∧
      Over l left e (advance now l left e).limiter (advance now l left e).left) ∨
    ∃ next isSpent, (advance now l left e).outcome = .waiting next isSpent ∧
      Waited now l left e (advance now l left e).limiter (advance now l left e).left next
        isSpent := by
  rw [leads.advance_eq]
  exact proceed_cases e.dialogue.requestsLeft le_rfl sound stands

end Execution

end CrewFlow.Agent
