import Mathlib
import CrewFlow.Remote.Completion
/-!
# Attempts at a chat

A chat is completed by the last outcome that is asked for: the first that decides, or the one after which no request
is left. What a client sends and how long it waits follows from the number of that outcome.
-/
set_option autoImplicit false

namespace CrewFlow.Remote

/-- What a client has done for a chat: the requests that it has sent and the milliseconds of its waits. -/
structure Exchange where
  sent : List Outgoing
  waits : List Nat

def Exchange.start : Exchange := ⟨[], []⟩

section Exchanges
variable (outcomes : Nat → Except String Reply)

/-- A service that gives the next outcome to each request. -/
def serving : Transport (StateM Exchange) := fun request => do
  let e ← get
  set { e with sent := e.sent ++ [request] }
  return outcomes e.sent.length

def pausing (wait : Nat) : StateM Exchange Unit := modify fun e => { e with waits := e.waits ++ [wait] }

def Attempt.result : Attempt → Except ChatError String
  | .decided result => result
  | .failed e => .error e

/-- An outcome is the last that is asked for: those before it failed, and it decides or no more requests are left. -/
structure LastAsked (more n : Nat) : Prop where
  within : n ≤ more
  failed : ∀ i < n, ∃ e, Attempt.ofOutcome (outcomes i) = .failed e
  last : n = more ∨ ∃ result, Attempt.ofOutcome (outcomes n) = .decided result

variable {outcomes}

theorem LastAsked.unique {more n k : Nat} (first : LastAsked outcomes more n) (second : LastAsked outcomes more k) :
    n = k := by
  -- The earlier of two would have failed and decided.
  have not_before {n k : Nat} (first : LastAsked outcomes more n) (second : LastAsked outcomes more k) : ¬n < k := by
    intro before
    obtain ⟨e, failed⟩ := second.failed n before
    rcases first.last with rfl | ⟨result, decided⟩
    · exact absurd second.within (Nat.not_le.mpr before)
    · rw [failed] at decided
      cases decided
  exact Nat.le_antisymm (Nat.not_lt.mp (not_before second first)) (Nat.not_lt.mp (not_before first second))

theorem LastAsked.later {more n : Nat} {e : ChatError} (here : Attempt.ofOutcome (outcomes 0) = .failed e)
    (last : LastAsked (fun i => outcomes (i + 1)) more n) : LastAsked outcomes (more + 1) (n + 1) where
  within := Nat.succ_le_succ last.within
  failed i before := by
    cases i with
    | zero => exact ⟨e, here⟩
    | succ i => exact last.failed i (Nat.lt_of_succ_lt_succ before)
  last := last.last.imp (congrArg (· + 1)) id

def Exchange.after (e : Exchange) (request : Outgoing) (wait waits : Nat) : Exchange :=
  ⟨e.sent ++ List.replicate (waits + 1) request, e.waits ++ List.iterate (2 * ·) wait waits⟩

end Exchanges

/-! ## Attempts over any state -/

section Course
variable {σ : Type} {send : StateM σ (Except String Reply)} {sleep : Nat → StateM σ Unit} {s : σ} {wait more : Nat}

variable (send sleep) in
/-- The state in which a request is sent after so many others. Behind each of them is a wait, twice as long as the
one before. -/
def stateBefore (wait : Nat) (s : σ) : Nat → σ
  | 0 => s
  | n + 1 => stateBefore (2 * wait) ((sleep wait).run (send.run s).2).2 n

theorem run_attempts_zero :
    (attempts send sleep wait 0).run s = ((Attempt.ofOutcome (send.run s).1).result, (send.run s).2) := by
  have one : (attempts send sleep wait 0).run s =
      (match Attempt.ofOutcome (send.run s).1 with
        | .decided result => pure result
        | .failed e => pure (.error e) : StateM σ (Except ChatError String)).run (send.run s).2 := rfl
  rw [one]
  cases Attempt.ofOutcome (send.run s).1 with
  | decided result => rfl
  | failed error => rfl

theorem run_attempts_succ :
    (attempts send sleep wait (more + 1)).run s =
      (match Attempt.ofOutcome (send.run s).1 with
        | .decided result => (result, (send.run s).2)
        | .failed _ => (attempts send sleep (2 * wait) more).run ((sleep wait).run (send.run s).2).2) := by
  have one : (attempts send sleep wait (more + 1)).run s =
      (match Attempt.ofOutcome (send.run s).1 with
        | .decided result => pure result
        | .failed _ => do
          sleep wait
          attempts send sleep (2 * wait) more : StateM σ (Except ChatError String)).run (send.run s).2 := rfl
  rw [one]
  cases Attempt.ofOutcome (send.run s).1 with
  | decided result => rfl
  | failed error => rfl

variable (send sleep) in
/-- Attempts end with the last outcome that is asked for. -/
theorem run_attempts (more wait : Nat) (s : σ) :
    ∃ n, LastAsked (fun i => (send.run (stateBefore send sleep wait s i)).1) more n ∧
      (attempts send sleep wait more).run s =
        ((Attempt.ofOutcome (send.run (stateBefore send sleep wait s n)).1).result,
          (send.run (stateBefore send sleep wait s n)).2) := by
  -- By the requests that are left. Outcomes are counted from the state that has been reached.
  induction more generalizing wait s with
  | zero => exact ⟨0, ⟨le_rfl, nofun, .inl rfl⟩, run_attempts_zero⟩
  | succ more ih =>
      cases attempt : Attempt.ofOutcome (send.run s).1 with
      | decided result =>
          refine ⟨0, ⟨Nat.zero_le _, nofun, .inr ⟨result, attempt⟩⟩, ?_⟩
          rw [run_attempts_succ, stateBefore, attempt]
          rfl
      | failed error =>
          obtain ⟨n, last, run⟩ := ih (2 * wait) ((sleep wait).run (send.run s).2).2
          refine ⟨n + 1, last.later attempt, ?_⟩
          rw [run_attempts_succ, attempt]
          exact run

end Course

/-! ## Chats -/

section Chats
variable (outcomes : Nat → Except String Reply)

theorem run_serving (request : Outgoing) (e : Exchange) :
    (serving outcomes request).run e = (outcomes e.sent.length, { e with sent := e.sent ++ [request] }) := rfl

theorem run_pausing (wait : Nat) (e : Exchange) :
    (pausing wait).run e = ((), { e with waits := e.waits ++ [wait] }) := rfl

theorem stateBefore_serving (request : Outgoing) (wait : Nat) (e : Exchange) (n : Nat) :
    stateBefore (serving outcomes request) pausing wait e n =
      ⟨e.sent ++ List.replicate n request, e.waits ++ List.iterate (2 * ·) wait n⟩ := by
  induction n generalizing wait e with
  | zero => simp [stateBefore]
  | succ n ih => simp [stateBefore, run_serving, run_pausing, ih, List.replicate_succ, List.iterate]

/-- What a chat comes to, and what has been done for it. -/
def ChatClient.chat (c : ChatClient) (messages : List (String × String))
    (outcomes : Nat → Except String Reply) : Except ChatError String × Exchange :=
  (c.complete (serving outcomes) pausing messages).run .start

variable {outcomes} in
theorem chat_of_keyless {c : ChatClient} (keyless : c.key = none) (messages : List (String × String)) :
    c.chat messages outcomes = (.error .noKey, .start) := by
  rw [ChatClient.chat, ChatClient.complete, keyless]
  rfl

theorem chat_of_keyed {c : ChatClient} {key : String} (keyed : c.key = some key)
    (messages : List (String × String)) :
    ∃ n, LastAsked outcomes c.retries n ∧
      c.chat messages outcomes = ((Attempt.ofOutcome (outcomes n)).result,
        Exchange.start.after (c.request key messages) firstWait n) := by
  obtain ⟨n, last, run⟩ := run_attempts (serving outcomes (c.request key messages)) pausing c.retries firstWait .start
  have met (i : Nat) : (serving outcomes (c.request key messages)).run
      (stateBefore (serving outcomes (c.request key messages)) pausing firstWait .start i) =
        (outcomes i, Exchange.start.after (c.request key messages) firstWait i) := by
    rw [stateBefore_serving, run_serving]
    simp [Exchange.start, Exchange.after, List.replicate_succ']
  simp only [met] at last run
  refine ⟨n, last, ?_⟩
  rw [ChatClient.chat, ChatClient.complete, keyed]
  exact run

end Chats

end CrewFlow.Remote
