import Mathlib
import CrewFlow.Proofs.Crew.Course
/-!
# Events of a timeline

What happens on a timeline, one thing after another: somebody moves, goes on with its work, or is dismissed. Who
moves or works has a crew that is not over, and only jobs of crews that are over are dismissed. Every request is
made and answered while somebody works, so the events account for all of them.
-/
set_option autoImplicit false

namespace CrewFlow.Crew

open Agent (Call Execution Progress)
open Kickoff (Course Move Reply)
open Rate (Allowance Limiter)
open Text (Inputs)

/-- A move, a turn of work with the requests that were answered in it and the answer if it came to its end, or a
dismissal. -/
inductive Event where
  | moved (who : Actor)
  | worked (who : Actor) (w : Work) (calls : List Call) (answer : Option (Except String String))
  | dismissed (who : Actor)

namespace Event

def who : Event → Actor
  | .moved who => who
  | .worked who .. => who
  | .dismissed who => who

def work? : Event → Option Work
  | .worked _ w .. => some w
  | .moved _ => none
  | .dismissed _ => none

def calls : Event → List Call
  | .worked _ _ calls _ => calls
  | .moved _ => []
  | .dismissed _ => []

/-- The reply that a crew hears in an event. -/
def reply? (c : Nat) : Event → Option Reply
  | .worked who w _ (some answer) => if who.crew = c then some (w, answer) else none
  | _ => none

end Event

def repliesOf (c : Nat) (events : List Event) : List Reply := events.filterMap (Event.reply? c)

namespace Timeline

/-- A thing that happens on a timeline. Nothing does when nobody moves, works or is dismissed. -/
inductive Act (t : Timeline) : Option Event → Timeline → Prop where
  | calm {next : Timeline} (held : next.held = t.held) (calls : next.calls = t.calls) : Act t none next
  | moved {who : Actor} {k after : Kickoff} (standing : t.kickoffs[who.crew]? = some k)
      (going : k.result? = none) (moved : k.moveBy who = some after) :
      Act t (some (.moved who)) (t.afterBy k after who)
  | worked {who : Actor} {k : Kickoff} {w : Work} {next : Timeline} (standing : t.kickoffs[who.crew]? = some k)
      (going : k.result? = none) (working : k.workBy? who = some w) (works : t.work who w = (next, none)) :
      Act t (some (.worked who w (t.progress who w).calls none)) next
  | answered {who : Actor} {k : Kickoff} {w : Work} {worked : Timeline} {answer : Except String String}
      (standing : t.kickoffs[who.crew]? = some k) (going : k.result? = none) (working : k.workBy? who = some w)
      (works : t.work who w = (worked, some answer)) :
      Act t (some (.worked who w (t.progress who w).calls (some answer)))
        (worked.afterBy k (k.answerBy answer who) who)
  | dismissed {c j : Nat} (ended : t.isCrewOver c = true) :
      Act t (some (.dismissed (.job c j))) (t.dismiss (.job c j))

/-- What has happened on a timeline until it has come to another. -/
inductive Lived (t : Timeline) : List Event → Timeline → Prop where
  | here : Lived t [] t
  | further {events : List Event} {last next : Timeline} {event : Option Event} (earlier : Lived t events last)
      (act : Act last event next) : Lived t (events ++ event.toList) next

variable {t u next : Timeline} {events later : List Event}

theorem Lived.trans (lived : Lived t events u) (onward : Lived u later next) : Lived t (events ++ later) next := by
  induction onward with
  | here =>
      rw [List.append_nil]
      exact lived
  | further _ act ih =>
      rw [← List.append_assoc]
      exact .further ih act

theorem Act.lived {event : Option Event} (act : Act t event next) : Lived t event.toList next := .further .here act

theorem Lived.calm (held : next.held = t.held) (calls : next.calls = t.calls) : Lived t [] next :=
  (Act.calm held calls).lived

theorem Lived.split {before : List Event} {event : Event} {after : List Event}
    (lived : Lived t (before ++ event :: after) next) : ∃ u v, Lived t before u ∧ Act u (some event) v := by
  -- An act adds one event at most, so the split falls behind the last act or into what was before it.
  generalize whole : before ++ event :: after = events at lived
  induction lived generalizing after with
  | here => simp at whole
  | @further events last next e earlier act ih =>
      cases e with
      | none => exact ih (by simpa using whole)
      | some e =>
          rcases List.eq_nil_or_concat after with rfl | ⟨front, y, rfl⟩
          · obtain ⟨rfl, rfl⟩ : before = events ∧ event = e := by
              simpa using List.append_inj' whole rfl
            exact ⟨last, next, earlier, act⟩
          · have shorter : (before ++ event :: front) ++ [y] = events ++ [e] := by simpa using whole
            exact ih (List.append_inj' shorter rfl).1

/-! ## What waiting and waking leave alone -/

theorem calls_foldl {α : Type} {f : Timeline → α → Timeline} (keeps : ∀ t a, (f t a).calls = t.calls)
    (actions : List α) : (actions.foldl f t).calls = t.calls := by
  induction actions generalizing t with
  | nil => rfl
  | cons a actions ih => rw [List.foldl_cons, ih, keeps]

theorem calls_rouse (m : Mover) : (t.rouse m).calls = t.calls := by
  unfold rouse
  split
  · rfl
  · split <;> rfl

theorem calls_wakeAll (actors : List Actor) : (t.wakeAll actors).calls = t.calls :=
  calls_foldl (fun _ _ => calls_rouse _) actors

theorem calls_await (job who : Actor) : (t.await job who).calls = t.calls := by
  unfold await
  split <;> rfl

theorem calls_putLimiter (role : String) (before after : Limiter Actor) :
    (t.putLimiter role before after).calls = t.calls := by
  unfold putLimiter
  dsimp only
  split
  · split
    · rfl
    · exact calls_rouse _
  · rfl

theorem calls_of_lookFor {c : Nat} {k : Kickoff} {awaits : Option Nat} (looked : t.lookFor c k awaits = some next) :
    next.calls = t.calls := by
  cases awaits with
  | none =>
      cases looked
      rfl
  | some j =>
      unfold lookFor look at looked
      dsimp only at looked
      split at looked
      · cases looked
        rfl
      · split at looked
        · cases looked
        · cases looked
          rfl
        · cases looked
          rfl

theorem calls_afterBy (before after : Kickoff) (who : Actor) : (t.afterBy before after who).calls = t.calls := by
  cases who with
  | main c => exact calls_wakeAll _
  | job c j =>
      unfold afterBy afterJob
      dsimp only
      split
      · exact calls_wakeAll _
      · rfl

theorem calls_dismiss (who : Actor) : (t.dismiss who).calls = t.calls := by
  unfold dismiss
  dsimp only
  split
  · rfl
  · split
    · exact calls_putLimiter ..
    · rfl

theorem calls_charge (role : String) (p : Progress Actor) : (t.charge role p).calls = t.calls ++ p.calls := by
  unfold charge
  dsimp only
  split
  · exact calls_putLimiter ..
  · rfl

theorem calls_work (who : Actor) (w : Work) : (t.work who w).1.calls = t.calls ++ (t.progress who w).calls := by
  cases outcome : (t.progress who w).outcome with
  | finished result =>
      rw [work_of_finished outcome]
      exact calls_charge ..
  | waiting e isSpent =>
      rw [work_of_waiting outcome]
      dsimp only
      split
      · exact calls_charge ..
      · exact calls_charge ..

/-! ## Polls are made of events -/

theorem result?_moveJob {k after : Kickoff} {c j : Nat} (moved : k.moveBy (.job c j) = some after) :
    after.result? = k.result? := by
  rw [Kickoff.result?, Kickoff.main_of_moveJob moved]
  rfl

theorem result?_of_moveBy {k after : Kickoff} {who : Actor} (jobs : ∀ c j, who = .job c j → k.result? = none)
    (moved : k.moveBy who = some after) : k.result? = none := by
  cases who with
  | main c =>
      unfold Kickoff.result?
      split
      · next main => simp [Kickoff.moveBy, Kickoff.moveMain, main] at moved
      · rfl
  | job c j => exact jobs c j rfl

theorem result?_of_workBy? {k : Kickoff} {who : Actor} {w : Work} (jobs : ∀ c j, who = .job c j → k.result? = none)
    (working : k.workBy? who = some w) : k.result? = none := by
  cases who with
  | main c =>
      obtain ⟨_, unfinished⟩ := Kickoff.awaitedBy?_of_workBy? working
      simpa [Kickoff.IsOver] using unfinished
  | job c j => exact jobs c j rfl

/-- A job is polled as long as its crew is not over. The main line stops by itself. -/
def Going (t : Timeline) (who : Actor) : Prop :=
  ∀ c j, who = .job c j → ∀ k, t.kickoffs[c]? = some k → k.result? = none

theorem Going.afterBy {who : Actor} {k after : Kickoff} (standing : t.kickoffs[who.crew]? = some k)
    (same : ∀ c j, who = .job c j → after.result? = none) : (t.afterBy k after who).Going who := by
  intro c j job k' there
  subst job
  rw [kickoffs_afterBy] at there
  cases (List.getElem?_set_self (List.getElem?_eq_some_iff.mp standing).1).symm.trans there
  exact same c j rfl

theorem lived_of_polled {who : Actor} {n : Nat} (going : t.Going who) (polled : Polled who n t next) :
    ∃ events, Lived t events next := by
  induction polled with
  | tired => exact ⟨[], .here⟩
  | absent nobody => exact ⟨[], .here⟩
  | spent standing spent => exact ⟨[], .calm rfl rfl⟩
  | @moved n t looked last k after standing look moved rest ih =>
      have calm : Lived t [] looked := .calm (held_of_lookFor look) (calls_of_lookFor look)
      have unfinished := result?_of_moveBy (fun c j job => going c j job k (by subst job; exact standing)) moved
      rw [← kickoffs_of_lookFor look] at standing
      obtain ⟨events, onward⟩ := ih (Going.afterBy standing fun c j job => by
        subst job
        rw [result?_moveJob moved, unfinished])
      exact ⟨_, calm.trans ((Act.moved standing unfinished moved).lived.trans onward)⟩
  | @answered n t looked worked last k w answer standing look working works rest ih =>
      have calm : Lived t [] looked := .calm (held_of_lookFor look) (calls_of_lookFor look)
      have unfinished := result?_of_workBy? (fun c j job => going c j job k (by subst job; exact standing)) working
      rw [← kickoffs_of_lookFor look] at standing
      have kickoffs : worked.kickoffs = looked.kickoffs := by
        have same := kickoffs_work looked who w
        rwa [works] at same
      obtain ⟨events, onward⟩ := ih (Going.afterBy (kickoffs ▸ standing) fun c j job => by
        subst job
        rw [Kickoff.result?, Kickoff.answerBy, Kickoff.main_answerJob]
        exact unfinished)
      exact ⟨_, calm.trans ((Act.answered standing unfinished working works).lived.trans onward)⟩
  | @working n t looked last k w standing look working works =>
      have calm : Lived t [] looked := .calm (held_of_lookFor look) (calls_of_lookFor look)
      have unfinished := result?_of_workBy? (fun c j job => going c j job k (by subst job; exact standing)) working
      rw [← kickoffs_of_lookFor look] at standing
      exact ⟨_, calm.trans (Act.worked standing unfinished working works).lived⟩
  | @awaiting n j t looked k standing look stuck idle awaits =>
      refine ⟨[], .calm ?_ ?_⟩
      · rw [held_await, held_of_lookFor look]
      · rw [calls_await, calls_of_lookFor look]
  | resting standing look stuck idle alone => exact ⟨[], .calm (held_of_lookFor look) (calls_of_lookFor look)⟩

/-! ## Turns are made of events -/

theorem lived_pollMains (t : Timeline) : ∃ events, Lived t events t.pollMains := by
  unfold pollMains
  generalize List.range t.kickoffs.length = crews
  induction crews generalizing t with
  | nil => exact ⟨[], .here⟩
  | cons c crews ih =>
      have going : t.Going (.main c) := by
        intro _ _ job
        cases job
      obtain ⟨events, polled⟩ := lived_of_polled going (polled_pollMain c t.moveBound t)
      obtain ⟨later, onward⟩ := ih (t.pollMain c t.moveBound)
      exact ⟨_, polled.trans onward⟩

theorem lived_poll (t : Timeline) (m : Mover) : ∃ events, Lived t events (t.poll m) := by
  have calm : Lived t [] { t with left := .full } := .calm rfl rfl
  unfold poll
  dsimp only
  split
  · obtain ⟨events, mains⟩ := lived_pollMains { t with left := .full }
    exact ⟨_, calm.trans mains⟩
  · next c j =>
      split
      · next ended => exact ⟨_, calm.trans (Act.dismissed ended).lived⟩
      · next going =>
          have jobs : Going { t with left := .full } (.job c j) := by
            intro c' j' same k standing
            cases same
            have standing : t.kickoffs[c]? = some k := standing
            simpa [isCrewOver, standing] using going
          obtain ⟨events, polled⟩ := lived_of_polled jobs (polled_pollJob c j _ _)
          exact ⟨_, calm.trans polled⟩

theorem lived_drain (n : Nat) (t : Timeline) : ∃ events, Lived t events (t.drain n) := by
  induction n generalizing t with
  | zero => exact ⟨[], .here⟩
  | succ n ih =>
      rw [drain]
      split
      · exact ⟨[], .here⟩
      · next m rest awake =>
          obtain ⟨events, polled⟩ := lived_poll { t with ready := rest } m
          have calm : Lived t [] { t with ready := rest } := .calm rfl rfl
          have turn : Lived t events (({ t with ready := rest } : Timeline).poll m) := calm.trans polled
          dsimp only
          split
          · exact ⟨_, turn⟩
          · obtain ⟨later, onward⟩ := ih (({ t with ready := rest } : Timeline).poll m)
            exact ⟨_, turn.trans onward⟩

theorem lived_moveAhead (t : Timeline) : ∃ events, Lived t events t.moveAhead := by
  unfold moveAhead
  split
  · obtain ⟨events, polled⟩ := lived_poll { t with mainReady := false } .mains
    have calm : Lived t [] { t with mainReady := false } := .calm rfl rfl
    exact ⟨_, calm.trans polled⟩
  · exact ⟨[], .here⟩

theorem lived_renew (t : Timeline) : Lived t [] t.renew :=
  .calm held_renew (calls_foldl (fun _ _ => calls_rouse _) _)

theorem lived_goTo (t : Timeline) (time : Nat) : Lived t [] (t.goTo time) :=
  .calm (held_wakeAll _) (calls_wakeAll _)

theorem lived_run (n : Nat) (t : Timeline) : ∃ events, Lived t events (t.run n) := by
  induction n generalizing t with
  | zero => exact ⟨[], .here⟩
  | succ n ih =>
      obtain ⟨first, ahead⟩ := lived_moveAhead t
      obtain ⟨second, onward⟩ := lived_drain turnsBetween t.moveAhead
      have drained := ahead.trans onward
      have renewed := drained.trans (lived_renew _)
      rw [run]
      dsimp only
      split
      · exact ⟨_, ahead⟩
      · split
        · exact ⟨_, drained⟩
        · split
          · obtain ⟨later, rounds⟩ := ih (t.moveAhead.drain turnsBetween).renew
            exact ⟨_, renewed.trans rounds⟩
          · split
            · next time _ =>
                obtain ⟨later, rounds⟩ := ih ((t.moveAhead.drain turnsBetween).renew.goTo time)
                exact ⟨_, (renewed.trans (lived_goTo _ time)).trans rounds⟩
            · exact ⟨_, renewed⟩

/-! ## What events do -/

theorem Act.calls_eq {event : Option Event} (act : Act t event next) :
    next.calls = t.calls ++ event.toList.flatMap Event.calls := by
  cases act with
  | calm held calls => simp [calls]
  | moved standing going moved => simp [calls_afterBy, Event.calls]
  | @worked who k w _ standing going working works =>
      have calls := calls_work (t := t) who w
      rw [works] at calls
      simpa [Event.calls] using calls
  | @answered who k w worked answer standing going working works =>
      have calls := calls_work (t := t) who w
      rw [works] at calls
      simpa [Event.calls, calls_afterBy] using calls
  | dismissed ended => simp [calls_dismiss, Event.calls]

theorem Lived.calls_eq (lived : Lived t events next) : next.calls = t.calls ++ events.flatMap Event.calls := by
  induction lived with
  | here => simp
  | further _ act ih => rw [act.calls_eq, ih, List.flatMap_append, List.append_assoc]

theorem Act.course {crew : Crew} {inputs : Inputs} {event : Option Event} {c : Nat} {k : Kickoff}
    {replies : List Reply} (act : Act t event next) (standing : t.kickoffs[c]? = some k)
    (course : Course (Kickoff.start crew inputs) replies k) :
    ∃ k', next.kickoffs[c]? = some k' ∧
      Course (Kickoff.start crew inputs) (replies ++ (event.bind (Event.reply? c)).toList) k' := by
  have rests : ∀ {kickoffs : List Kickoff} {who : Actor} {k₁ : Kickoff}, who.crew ≠ c → kickoffs = t.kickoffs →
      (kickoffs.set who.crew k₁)[c]? = some k := by
    rintro _ who k₁ other rfl
    rw [List.getElem?_set_ne other, standing]
  cases act with
  | calm held calls =>
      have kickoffs : next.kickoffs = t.kickoffs := congrArg Prod.fst held
      exact ⟨k, kickoffs ▸ standing, by simpa using course⟩
  | @moved who k₁ after there going moved =>
      rw [kickoffs_afterBy]
      by_cases here : who.crew = c
      · subst here
        cases there.symm.trans standing
        refine ⟨after, List.getElem?_set_self (List.getElem?_eq_some_iff.mp standing).1, ?_⟩
        exact .further course (.moved moved)
      · exact ⟨k, rests here rfl, by simpa [Event.reply?] using course⟩
  | @worked who k₁ w _ there going working works =>
      have kickoffs := kickoffs_work t who w
      rw [works] at kickoffs
      exact ⟨k, kickoffs ▸ standing, by simpa [Event.reply?] using course⟩
  | @answered who k₁ w worked answer there going working works =>
      have kickoffs := kickoffs_work t who w
      rw [works] at kickoffs
      rw [kickoffs_afterBy, kickoffs]
      by_cases here : who.crew = c
      · subst here
        cases there.symm.trans standing
        refine ⟨_, List.getElem?_set_self (List.getElem?_eq_some_iff.mp standing).1, ?_⟩
        simpa [Event.reply?] using Course.further course (.answered answer working)
      · exact ⟨k, rests here rfl, by simpa [Event.reply?, here] using course⟩
  | @dismissed c' j ended =>
      have kickoffs : (t.dismiss (.job c' j)).kickoffs = t.kickoffs := congrArg Prod.fst (held_dismiss _)
      exact ⟨k, kickoffs ▸ standing, by simpa [Event.reply?] using course⟩

/-- A crew has gone through a course in which it has heard the replies among the events. -/
theorem Lived.course {crews : List Crew} {inputs : Inputs} {now : Nat} {limiters : Limiters} {rank : Rank}
    {left : Allowance} (lived : Lived (start crews inputs now limiters rank left) events t) {c : Nat} {crew : Crew}
    (member : crews[c]? = some crew) :
    ∃ k, t.kickoffs[c]? = some k ∧ Course (Kickoff.start crew inputs) (repliesOf c events) k := by
  induction lived with
  | here => exact ⟨_, by simp [start, member], .here⟩
  | @further events last next event earlier act ih =>
      obtain ⟨k, standing, course⟩ := ih
      have heard : repliesOf c (events ++ event.toList) =
          repliesOf c events ++ (event.bind (Event.reply? c)).toList := by
        rw [repliesOf, List.filterMap_append]
        cases event with
        | none => rfl
        | some event => cases reply : event.reply? c <;> simp [reply, repliesOf]
      rw [heard]
      exact act.course standing course

/-- What crews that run side by side come to is made of events, and so are the requests that they made. -/
theorem lived_of_runAll {crews : List Crew} {inputs : Inputs} {now : Nat} {limiters : Limiters} {rank : Rank}
    {left : Allowance} {ending : Ending} (ended : runAll crews inputs now limiters rank left = some ending) :
    ∃ events t, Lived (start crews inputs now limiters rank left) events t ∧
      ending.calls = events.flatMap Event.calls ∧
      List.Forall₂ (fun (k : Kickoff) outcome => k.result? = some outcome) t.kickoffs ending.outcomes := by
  obtain ⟨outcomes, found, here⟩ := Option.bind_eq_some_iff.mp ended
  cases here
  obtain ⟨first, mains⟩ := lived_pollMains (start crews inputs now limiters rank left)
  obtain ⟨events, rounds⟩ := lived_run (crews.foldr (fun c n => roundBound c + n) 1)
    (start crews inputs now limiters rank left).pollMains
  exact ⟨_, _, mains.trans rounds, (mains.trans rounds).calls_eq, mapM_eq_some.mp found⟩

/-! ## Events that can be computed -/

def act? (t : Timeline) (who : Actor) : Option (Event × Timeline) :=
  (t.kickoffs[who.crew]?).bind fun k =>
    if k.result?.isSome then none
    else
      match k.moveBy who with
      | some after => some (.moved who, t.afterBy k after who)
      | none => (k.workBy? who).map fun w =>
        let calls := (t.progress who w).calls
        match t.work who w with
        | (next, none) => (.worked who w calls none, next)
        | (worked, some answer) =>
          (.worked who w calls (some answer), worked.afterBy k (k.answerBy answer who) who)

def perform (t : Timeline) : List Actor → Option (List Event × Timeline)
  | [] => some ([], t)
  | who :: rest => (t.act? who).bind fun (event, next) =>
      (next.perform rest).map fun (events, last) => (event :: events, last)

theorem act_of_act? {who : Actor} {event : Event} (acts : t.act? who = some (event, next)) :
    Act t (some event) next := by
  obtain ⟨k, standing, acts⟩ := Option.bind_eq_some_iff.mp acts
  split at acts
  · cases acts
  · next going =>
      have going : k.result? = none := by simpa using going
      split at acts
      · next after moved =>
          cases acts
          exact .moved standing going moved
      · obtain ⟨w, working, acts⟩ := Option.map_eq_some_iff.mp acts
        dsimp only at acts
        split at acts
        · next works =>
            cases acts
            exact .worked standing going working works
        · next works =>
            cases acts
            exact .answered standing going working works

theorem lived_of_perform {actors : List Actor} (performed : t.perform actors = some (events, next)) :
    Lived t events next := by
  induction actors generalizing t events with
  | nil =>
      cases performed
      exact .here
  | cons who actors ih =>
      obtain ⟨⟨event, middle⟩, acts, rest⟩ := Option.bind_eq_some_iff.mp performed
      obtain ⟨⟨later, last⟩, onward, same⟩ := Option.map_eq_some_iff.mp rest
      cases same
      exact (act_of_act? acts).lived.trans (ih onward)

end Timeline

end CrewFlow.Crew
