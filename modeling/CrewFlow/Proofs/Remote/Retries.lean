import Mathlib
import CrewFlow.Proofs.Remote.Attempts
/-!
# Retries of a chat

A client sends its request again while it meets no definitive outcome and has retries left. Before each retry it
waits, twice as long as before the one before. What it comes to hangs on the last outcome and on no other.
-/
set_option autoImplicit false

namespace CrewFlow.Remote

/-! ## Outcomes -/

/-- An outcome after which a request is worth another try: it did not get through, came too often, or met a fault
of the service. -/
inductive Passing : Except String Reply → Prop where
  | lost (cause : String) : Passing (.error cause)
  | often {r : Reply} (status : r.status = 429) : Passing (.ok r)
  | fault {r : Reply} (low : 500 ≤ r.status) (high : r.status < 600) : Passing (.ok r)

/-- What a chat comes to by its last outcome. -/
inductive Concludes : Except String Reply → Except ChatError String → Prop where
  | lost (cause : String) : Concludes (.error cause) (.error (.transport cause))
  | unavailable {r : Reply} (passing : Passing (.ok r)) : Concludes (.ok r) (.error (.unavailable r.status))
  | refused {r : Reply} (definitive : ¬Passing (.ok r)) (low : 400 ≤ r.status) (high : r.status < 500) :
      Concludes (.ok r) (.error (.refused r.status r.body))
  | answered {r : Reply} (definitive : ¬Passing (.ok r)) (accepted : r.status < 400 ∨ 500 ≤ r.status) :
      Concludes (.ok r) (readBody r.body)

theorem passing_ok_iff {r : Reply} :
    Passing (.ok r) ↔ (r.status = tooManyRequests || r.isServerError) = true := by
  rw [Bool.or_eq_true, decide_eq_true_eq, Reply.isServerError, Bool.and_eq_true, decide_eq_true_eq, decide_eq_true_eq]
  constructor
  · rintro (_ | status | ⟨low, high⟩)
    · exact .inl status
    · exact .inr ⟨low, high⟩
  · rintro (status | ⟨low, high⟩)
    · exact .often status
    · exact .fault low high

theorem passing_iff (outcome : Except String Reply) :
    Passing outcome ↔ ∃ e, Attempt.ofOutcome outcome = .failed e := by
  cases outcome with
  | error cause => exact ⟨fun _ => ⟨_, rfl⟩, fun _ => .lost cause⟩
  | ok r =>
      rw [passing_ok_iff, Attempt.ofOutcome]
      split
      · next passing => exact ⟨fun _ => ⟨_, rfl⟩, fun _ => passing⟩
      · next definitive =>
          refine ⟨fun passing => absurd passing definitive, ?_⟩
          rintro ⟨e, failed⟩
          split at failed <;> cases failed

theorem concludes_result (outcome : Except String Reply) :
    Concludes outcome (Attempt.ofOutcome outcome).result := by
  cases outcome with
  | error cause => exact .lost cause
  | ok r =>
      rw [Attempt.ofOutcome]
      split
      · next passing => exact .unavailable (passing_ok_iff.mpr passing)
      · next definitive =>
          rw [← passing_ok_iff] at definitive
          split
          · next client =>
              rw [Reply.isClientError, Bool.and_eq_true, decide_eq_true_eq, decide_eq_true_eq] at client
              exact .refused definitive client.1 client.2
          · next accepted =>
              rw [Reply.isClientError, Bool.and_eq_true, decide_eq_true_eq, decide_eq_true_eq] at accepted
              exact .answered definitive (by omega)

/-! ## Journals -/

inductive Deed where
  | sent (request : Outgoing)
  | waited (ms : Nat)

/-- What a client has done for a chat, in order. -/
abbrev Journal := List Deed

namespace Journal

def requests : Journal → List Outgoing
  | [] => []
  | .sent request :: rest => request :: requests rest
  | .waited _ :: rest => requests rest

def waits : Journal → List Nat
  | [] => []
  | .sent _ :: rest => waits rest
  | .waited ms :: rest => ms :: waits rest

theorem requests_append (before behind : Journal) :
    requests (before ++ behind) = requests before ++ requests behind := by
  induction before with
  | nil => rfl
  | cons deed before ih => cases deed <;> simp [requests, ih]

/-- Requests with a wait behind each of them, twice as long as the one before. -/
def failing (request : Outgoing) (wait : Nat) : Nat → Journal
  | 0 => []
  | n + 1 => .sent request :: .waited wait :: failing request (2 * wait) n

/-- A request that is sent again so often. The first wait is given, each other is twice as long as the one before. -/
def retried (request : Outgoing) (wait n : Nat) : Journal := failing request wait n ++ [.sent request]

section Retried
variable (request : Outgoing) (wait n : Nat)

theorem requests_failing : (failing request wait n).requests = List.replicate n request := by
  induction n generalizing wait with
  | zero => rfl
  | succ n ih => rw [failing, requests, requests, ih, List.replicate_succ]

theorem requests_retried : (retried request wait n).requests = List.replicate (n + 1) request := by
  rw [retried, requests_append, requests_failing, List.replicate_succ']
  rfl

theorem waits_retried : (retried request wait n).waits = (List.range n).map fun k => wait * 2 ^ k := by
  induction n generalizing wait with
  | zero => rfl
  | succ n ih =>
      have later (k : Nat) : 2 * wait * 2 ^ k = wait * 2 ^ (k + 1) := by ring
      simp only [retried] at ih ⊢
      rw [failing, List.cons_append, List.cons_append, waits, waits, ih, List.range_succ_eq_map, List.map_cons,
        List.map_map, pow_zero, mul_one]
      simp only [later]
      rfl

theorem sum_waits_retried : (retried request wait n).waits.sum = wait * (2 ^ n - 1) := by
  rw [waits_retried]
  induction n with
  | zero => simp
  | succ n ih =>
      have some_wait : 1 ≤ 2 ^ n := Nat.one_le_two_pow
      rw [List.range_succ, List.map_append, List.sum_append, ih, List.map_singleton, List.sum_singleton, ← mul_add,
        pow_succ]
      congr 1
      omega

end Retried

end Journal

/-! ## Chats with a journal -/

section Chats
variable (outcomes : Nat → Except String Reply)

/-- A service that gives the next outcome to each request, which is put down. -/
def noting : Transport (StateM Journal) := fun request => do
  let journal ← get
  set (journal ++ [.sent request])
  return outcomes journal.requests.length

def notingWait (ms : Nat) : StateM Journal Unit := modify fun journal => journal ++ [.waited ms]

theorem run_noting (request : Outgoing) (journal : Journal) :
    (noting outcomes request).run journal = (outcomes journal.requests.length, journal ++ [.sent request]) := rfl

theorem run_notingWait (ms : Nat) (journal : Journal) :
    (notingWait ms).run journal = ((), journal ++ [.waited ms]) := rfl

theorem stateBefore_noting (request : Outgoing) (wait n : Nat) (journal : Journal) :
    stateBefore (noting outcomes request) notingWait wait journal n =
      journal ++ Journal.failing request wait n := by
  induction n generalizing wait journal with
  | zero => rw [stateBefore, Journal.failing, List.append_nil]
  | succ n ih => simp [stateBefore, run_noting, run_notingWait, ih, Journal.failing]

/-- What a chat comes to, and what is done for it in order. -/
def ChatClient.notedChat (c : ChatClient) (messages : List (String × String)) : Except ChatError String × Journal :=
  (c.complete (noting outcomes) notingWait messages).run []

theorem notedChat_of_keyed {c : ChatClient} {key : String} (keyed : c.key = some key)
    (messages : List (String × String)) :
    ∃ n, LastAsked outcomes c.retries n ∧
      c.notedChat outcomes messages =
        ((Attempt.ofOutcome (outcomes n)).result, Journal.retried (c.request key messages) firstWait n) := by
  obtain ⟨n, last, run⟩ := run_attempts (noting outcomes (c.request key messages)) notingWait c.retries firstWait []
  have met (i : Nat) : (noting outcomes (c.request key messages)).run
      (stateBefore (noting outcomes (c.request key messages)) notingWait firstWait [] i) =
        (outcomes i, Journal.retried (c.request key messages) firstWait i) := by
    rw [stateBefore_noting, run_noting, List.nil_append, Journal.requests_failing, List.length_replicate,
      Journal.retried]
  simp only [met] at last run
  refine ⟨n, last, ?_⟩
  rw [ChatClient.notedChat, ChatClient.complete, keyed]
  exact run

end Chats

/-- The longest wait that can be told, in whole milliseconds: seconds are counted with 64 bits. -/
def longestWait : Nat := 1000 * 2 ^ 64 - 1

/-- A service that a client does not reach at first, that is down then, and that answers at last. -/
def slowStart : Nat → Except String Reply
  | 0 => .error "cut off"
  | 1 => .ok ⟨503, "down"⟩
  | _ + 2 => .ok ⟨200, "\x7b\"choices\": [\x7b\"message\": \x7b\"content\": \"42\"\x7d\x7d]\x7d"⟩

def persistent : ChatClient := ChatClient.make "m" (some "key") none

end CrewFlow.Remote
