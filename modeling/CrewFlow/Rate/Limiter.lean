/-!
# Rate limits

Requests are counted in windows of one minute. A client first takes the lock, which is fair: it goes
to the clients in the order in which they asked. The client that holds the lock is counted at once
when the window has room; else it keeps the lock until the window is over and opens the next one.
A client that gives up leaves the window as it is and hands the lock on.
-/
namespace CrewFlow.Rate

/-- The length of a window in milliseconds. -/
def windowLength : Nat := 60000

/-- When the current window started and how many requests it has. -/
structure Window where
  started : Nat
  count : Nat
  deriving DecidableEq, Repr

/-- What a window says to a request. -/
inductive Admission where
  | granted (w : Window)
  | full (ends : Nat)
  deriving DecidableEq, Repr

def Window.current (w : Window) (now : Nat) : Window :=
  if windowLength ≤ now - w.started then ⟨now, 0⟩ else w

def Window.decide (w : Window) (most now : Nat) : Admission :=
  let w := w.current now
  if w.count < most then .granted { w with count := w.count + 1 }
  else .full (w.started + windowLength)

/-- The window that a request opens after it has waited for it. -/
def Window.opened (now : Nat) : Window := ⟨now, 1⟩

/-- A window behind a fair lock. -/
structure Limiter (α : Type) where
  most : Nat
  window : Window
  holder : Option α
  queue : List α
  deriving Repr

namespace Limiter

variable {α : Type} [DecidableEq α]

def start (most now : Nat) : Limiter α := ⟨most, ⟨now, 0⟩, none, []⟩

def ask (l : Limiter α) (who : α) : Limiter α :=
  match l.holder with
  | none => { l with holder := some who }
  | some _ => { l with queue := l.queue ++ [who] }

def release (l : Limiter α) : Limiter α :=
  { l with holder := l.queue.head?, queue := l.queue.tail }

/-- Takes back a client: hands the lock on when it holds it, else removes it from the queue. -/
def withdraw (l : Limiter α) (who : α) : Limiter α :=
  if l.holder = some who then l.release else { l with queue := l.queue.filter fun x => x ≠ who }

/-- The holder of the lock tries the window. When it is counted, it hands the lock on; else it learns
when the window is over. -/
def pass (l : Limiter α) (now : Nat) : Limiter α × Option Nat :=
  match l.window.decide l.most now with
  | .granted w => ({ l with window := w }.release, none)
  -- When no requests are allowed at all, even a new window refuses.
  | .full ends => ({ l with window := l.window.current now }, some ends)

/-- The holder of the lock opens the next window and hands the lock on. -/
def reopen (l : Limiter α) (now : Nat) : Limiter α :=
  { l with window := .opened now }.release

/-- A request of a client that has the limiter to itself: the limiter behind it and the time at which
it is counted. -/
def acquire (l : Limiter α) (who : α) (now : Nat) : Limiter α × Nat :=
  match (l.ask who).pass now with
  | (l, none) => (l, now)
  | (l, some ends) => (l.reopen (max now ends), max now ends)

end Limiter

end CrewFlow.Rate
