import Mathlib
import CrewFlow.Proofs.Crew.Waking
/-!
# Nobody is forgotten

Everybody who is not over waits for something of which the timeline knows: for a turn, for a time at
which an alarm goes off, for a lock that somebody else holds, or for the end of a job. So when nobody is
awake and no alarm is set, all crews are over.
-/
set_option autoImplicit false

namespace CrewFlow.Crew

open Agent (Execution)
open Agent.Execution (Stands holderOf)
open Kickoff (Change)

namespace Timeline

variable {t next : Timeline} {k after : Kickoff} {who other : Actor} {c : Nat}

/-! ## Waiting -/

/-- An actor waits for something of which the timeline knows, or is over. The work of a job is over too
when it has been dismissed with its crew. -/
inductive Waits (t : Timeline) (k : Kickoff) (who : Actor) : Prop
  | awake (awake : t.Awake who.mover)
  | done (done : k.IsOver who)
  | dismissed (ended : k.result?.isSome = true) (gone : ∀ e ∈ t.executions, e.who ≠ who)
  | timed {e : Execution Actor} {ends : Nat} (member : e ∈ t.executions) (his : e.who = who)
      (stage : e.stage.ends? = some ends) (alarm : (ends, who) ∈ t.alarms)
  | queued {e : Execution Actor} (member : e ∈ t.executions) (his : e.who = who)
      (stage : e.stage = .queued)
      (behind : holderOf (t.limiters.lookup e.agent.role) ≠ some who)
  | awaiting {j : Nat} (awaits : k.awaitedBy? who = some j) (below : j < k.jobs.length)
      (unfinished : k.jobResult? j = none) (noted : (.job who.crew j, who) ∈ t.awaited)

/-- The crews of a timeline are watched, but for the actors whose turn it is. -/
structure Watched (t : Timeline) (busy : Set Actor) : Prop where
  sound : ∀ role l, t.limiters.lookup role = some l → l.Sound
  manned : ∀ role l x, t.limiters.lookup role = some l → x ∈ l.line →
    ∃ e ∈ t.executions, e.who = x ∧ e.agent.role = role
  stands : ∀ e ∈ t.executions, Stands (t.limiters.lookup e.agent.role) e
  once : (t.executions.map (·.who)).Nodup
  alarmed : ∀ e ∈ t.executions, ∀ ends, e.stage.ends? = some ends →
    (ends, e.who) ∈ t.alarms ∨ ends ≤ t.now
  noted : t.awaited.Nodup
  awaiters : ∀ w ∈ t.awaited, w.2.crew = w.1.crew ∧
    ∃ k, t.kickoffs[w.2.crew]? = some k ∧ k.Has w.2
  waits : ∀ who k, t.kickoffs[who.crew]? = some k → k.Has who → who ∉ busy → t.Waits k who

variable {busy : Set Actor}

theorem Waits.mono (waits : t.Waits k who) (awake : ∀ m, t.Awake m → next.Awake m)
    (executions : next.executions = t.executions) (limiters : next.limiters = t.limiters)
    (alarms : ∀ ends, (ends, who) ∈ t.alarms → (ends, who) ∈ next.alarms ∨ next.Awake who.mover)
    (awaited : ∀ j, (.job who.crew j, who) ∈ t.awaited → (.job who.crew j, who) ∈ next.awaited) :
    next.Waits k who := by
  cases waits with
  | awake already => exact .awake (awake _ already)
  | done done => exact .done done
  | dismissed ended gone => exact .dismissed ended (executions ▸ gone)
  | timed member his stage alarm =>
      rcases alarms _ alarm with still | woken
      · exact .timed (executions ▸ member) his stage still
      · exact .awake woken
  | queued member his stage behind => exact .queued (executions ▸ member) his stage (limiters ▸ behind)
  | awaiting awaits below unfinished noted => exact .awaiting awaits below unfinished (awaited _ noted)

theorem Waits.of_calm (waits : t.Waits k who) (calm : t.Calm next) : next.Waits k who :=
  waits.mono calm.awake (congrArg Prod.snd calm.held) calm.limiters
    (fun _ alarm => .inl (calm.alarms ▸ alarm)) fun _ noted => calm.awaited ▸ noted

theorem Watched.of_calm (watched : t.Watched busy) (calm : t.Calm next) : next.Watched busy := by
  have kickoffs : next.kickoffs = t.kickoffs := congrArg Prod.fst calm.held
  have executions : next.executions = t.executions := congrArg Prod.snd calm.held
  obtain ⟨sound, manned, stands, once, alarmed, noted, awaiters, waits⟩ := watched
  refine ⟨?_, ?_, ?_, ?_, ?_, ?_, ?_, ?_⟩
  · rw [calm.limiters]
    exact sound
  · rw [calm.limiters, executions]
    exact manned
  · rw [calm.limiters, executions]
    exact stands
  · rw [executions]
    exact once
  · rw [executions, calm.alarms, calm.now]
    exact alarmed
  · rw [calm.awaited]
    exact noted
  · rw [calm.awaited, kickoffs]
    exact awaiters
  · rw [kickoffs]
    intro who k standing has idle
    exact (waits who k standing has idle).of_calm calm

theorem Watched.mono {fewer : Set Actor} (watched : t.Watched busy)
    (waits : ∀ who k, t.kickoffs[who.crew]? = some k → k.Has who → who ∈ busy → who ∉ fewer →
      t.Waits k who) : t.Watched fewer := by
  refine { watched with waits := ?_ }
  intro who k standing has idle
  by_cases turn : who ∈ busy
  · exact waits who k standing has turn idle
  · exact watched.waits who k standing has turn

theorem Watched.settled (watched : t.Watched busy) (standing : t.kickoffs[who.crew]? = some k)
    (waits : k.Has who → t.Waits k who) : t.Watched (busy \ {who}) := by
  apply watched.mono
  intro other k' standing' has turn idle
  have same : other = who := by
    by_contra apart
    exact idle ⟨turn, apart⟩
  subst same
  cases standing.symm.trans standing'
  exact waits has

/-! ## Moves -/

variable {ask : Answers} {job : Option Nat}

/-- The most that are woken by a move: new jobs by the main line, or all when it is over, and by a job that
is over those who have waited for it. -/
def wokenBy (k after : Kickoff) : Option Nat → Nat
  | none => if after.result?.isSome then after.jobs.length else after.jobs.length - k.jobs.length
  | some j => if (after.jobResult? j).isSome then k.jobs.length + 1 else 0

/-- A kickoff has been written back after a move: new jobs are awake, and so are those who have waited for
a job that is over now. -/
structure Written (t : Timeline) (c : Nat) (k : Kickoff) (job : Option Nat) (next : Timeline)
    (after : Kickoff) : Prop where
  kickoffs : next.kickoffs = t.kickoffs.set c after
  executions : next.executions = t.executions
  now : next.now = t.now
  left : next.left = t.left
  noticed : next.noticed = t.noticed
  spent : next.spent = t.spent
  limiters : next.limiters = t.limiters
  alarms : next.alarms = t.alarms
  awake : ∀ m, t.Awake m → next.Awake m
  wakes : next.wakes ≤ t.wakes + wokenBy k after job
  awaited : next.awaited.Sublist t.awaited
  noted : ∀ w ∈ t.awaited, (∀ j, w.1 = .job c j → after.jobResult? j = none) → w ∈ next.awaited
  woken : ∀ w ∈ t.awaited, ∀ j, w.1 = .job c j → job = some j → after.jobResult? j ≠ none →
    next.Awake w.2.mover
  hired : ∀ j, k.jobs.length ≤ j → after.Has (.job c j) →
    next.Awake (.job c j) ∨ after.IsOver (.job c j)

theorem written_afterMain (c : Nat) (k after : Kickoff) :
    t.Written c k none (t.afterMain c k after) after := by
  let woken : List Nat :=
    if after.result?.isSome then after.openJobs
    else List.range' k.jobs.length (after.jobs.length - k.jobs.length)
  have few : (woken.map (Actor.job c)).length ≤ wokenBy k after none := by
    rw [List.length_map, wokenBy]
    simp only [woken]
    split
    · exact (List.length_filter_le ..).trans_eq List.length_range
    · rw [List.length_range']
  obtain ⟨roused, awake⟩ := roused_wakeAll (t := t.putKickoff c after) (woken.map (Actor.job c))
  have awaited : (t.afterMain c k after).awaited = t.awaited := roused.awaited
  refine ⟨congrArg Prod.fst roused.held, congrArg Prod.snd roused.held, roused.now,
    roused.left, roused.noticed, roused.spent, roused.limiters, roused.alarms, roused.awake,
    roused.wakes.trans (Nat.add_le_add_left few _), ?_, ?_, by simp, ?_⟩
  · rw [awaited]
  · intro w member _
    rw [awaited]
    exact member
  · intro j above below
    by_cases finished : (after.jobResult? j).isSome = true
    · exact .inr finished
    · refine .inl (awake (.job c j) (List.mem_map_of_mem ?_))
      simp only [woken]
      split
      · simp only [Kickoff.openJobs, List.mem_filter, List.mem_range]
        exact ⟨below, by simpa using finished⟩
      · rw [List.mem_range'_1]
        have below : j < after.jobs.length := below
        omega

theorem Watched.length_awaiting_le (watched : t.Watched busy) (standing : t.kickoffs[c]? = some k)
    (j : Nat) : (t.awaited.filter fun w => w.1 = .job c j).length ≤ k.jobs.length + 1 := by
  have once : ((t.awaited.filter fun w => w.1 = .job c j).map (·.2)).Nodup := by
    refine List.Nodup.map_on ?_ (watched.noted.filter _)
    intro w member w' member' same
    have first := (List.mem_filter.mp member).2
    have second := (List.mem_filter.mp member').2
    exact Prod.ext ((of_decide_eq_true first).trans (of_decide_eq_true second).symm) same
  have actors : (t.awaited.filter fun w => w.1 = .job c j).map (·.2) ⊆
      .main c :: (List.range k.jobs.length).map (Actor.job c) := by
    intro who member
    obtain ⟨w, there, rfl⟩ := List.mem_map.mp member
    obtain ⟨same, k', standing', has⟩ := watched.awaiters w (List.mem_of_mem_filter there)
    have crew : w.2.crew = c := by
      rw [same, of_decide_eq_true (List.mem_filter.mp there).2]
      rfl
    rw [crew] at standing'
    cases standing.symm.trans standing'
    cases his : w.2 with
    | main c' =>
        rw [his] at crew
        obtain rfl : c' = c := crew
        exact List.mem_cons_self
    | job c' i =>
        rw [his] at crew has
        obtain rfl : c' = c := crew
        exact List.mem_cons_of_mem _ (List.mem_map_of_mem (List.mem_range.mpr has))
  simpa using (once.subperm actors).length_le

theorem written_afterJob {j : Nat} (watched : t.Watched busy) (standing : t.kickoffs[c]? = some k)
    (change : Change ask k (some j) after) :
    t.Written c k (some j) (t.afterJob c j after) after := by
  have hired : ∀ i, k.jobs.length ≤ i → after.Has (.job c i) → False := by
    intro i above below
    obtain ⟨_, phase, _, rfl⟩ := Kickoff.eq_setPhase_of_change change
    have below : i < (k.setPhase j phase).jobs.length := below
    rw [Kickoff.setPhase, List.length_modify] at below
    omega
  unfold afterJob
  dsimp only
  split
  · next finished =>
      let noted : Timeline :=
        { t.putKickoff c after with awaited := t.awaited.filter fun w => w.1 ≠ .job c j }
      let woken := (t.awaited.filter fun w => w.1 = .job c j).map (·.2)
      have few : woken.length ≤ wokenBy k after (some j) := by
        have finished : (after.jobResult? j).isSome = true := finished
        rw [wokenBy, if_pos finished, List.length_map]
        exact watched.length_awaiting_le standing j
      obtain ⟨roused, awake⟩ := roused_wakeAll (t := noted) woken
      refine ⟨congrArg Prod.fst roused.held, congrArg Prod.snd roused.held, roused.now,
        roused.left, roused.noticed, roused.spent, roused.limiters, roused.alarms, roused.awake,
        roused.wakes.trans (Nat.add_le_add_left few _), ?_, ?_, ?_, ?_⟩
      · rw [show (wakeAwaiting _ _).awaited = _ from roused.awaited]
        exact List.filter_sublist
      · intro w member unfinished
        rw [show (wakeAwaiting _ _).awaited = _ from roused.awaited]
        refine List.mem_filter.mpr ⟨member, ?_⟩
        have other : w.1 ≠ .job c j := by
          intro names
          simp [unfinished j names] at finished
        simpa using other
      · intro w member i names same _
        cases same
        exact awake w.2 (List.mem_map_of_mem (List.mem_filter.mpr ⟨member, by simpa using names⟩))
      · intro i above below
        exact (hired i above below).elim
  · next unfinished =>
      refine ⟨rfl, rfl, rfl, rfl, rfl, rfl, rfl, rfl, fun _ => id, Nat.le_add_right _ _, .refl _,
        fun _ member _ => member, ?_, ?_⟩
      · intro w _ i _ same finished
        cases same
        exact absurd (by simpa using unfinished) finished
      · intro i above below
        exact (hired i above below).elim

theorem written_afterBy (watched : t.Watched busy) (standing : t.kickoffs[who.crew]? = some k)
    (change : Change ask k who.job? after) :
    t.Written who.crew k who.job? (t.afterBy k after who) after := by
  cases who with
  | main c => exact written_afterMain c k after
  | job c j => exact written_afterJob watched standing change

/-- Somebody in the crew that has moved waits as before, or is awake if it has waited for the job that is over
now. -/
theorem Waits.beside (waits : t.Waits k other) (written : t.Written other.crew k job next after)
    (change : Change ask k job after) (apart : job ≠ other.job?) (old : k.Has other) :
    next.Waits after other := by
  obtain ⟨same, stays⟩ := Kickoff.awaitedBy?_of_change change apart old
  cases waits with
  | awake awake => exact .awake (written.awake _ awake)
  | done done => exact .done (stays done)
  | dismissed ended gone =>
      exact .dismissed (Kickoff.isSome_result?_of_change change ended) (written.executions ▸ gone)
  | timed member his stage alarm =>
      exact .timed (written.executions ▸ member) his stage (written.alarms ▸ alarm)
  | queued member his stage behind =>
      exact .queued (written.executions ▸ member) his stage (written.limiters ▸ behind)
  | @awaiting j awaits below unfinished noting =>
      by_cases still : after.jobResult? j = none
      · refine .awaiting (same.trans awaits)
          (Nat.lt_of_lt_of_le below (Kickoff.length_jobs_of_change change)) still ?_
        refine written.noted _ noting ?_
        intro i names
        rw [← (Actor.job.inj names).2]
        exact still
      · by_cases here : job = some j
        · exact .awake (written.woken _ noting j rfl here still)
        · have unchanged := Kickoff.jobResult?_of_change change here below
          exact absurd (unchanged.trans unfinished) still

theorem Waits.elsewhere {other : Actor} {k' : Kickoff} (waits : t.Waits k' other)
    (written : t.Written c k job next after) (elsewhere : other.crew ≠ c) : next.Waits k' other := by
  refine waits.mono written.awake written.executions written.limiters
    (fun _ alarm => .inl (written.alarms ▸ alarm)) fun j noting => written.noted _ noting ?_
  intro i names
  exact absurd (Actor.job.inj names).1 elsewhere

/-- A move of somebody leaves the others watched. -/
theorem Watched.written (watched : t.Watched busy) (turn : who ∈ busy)
    (standing : t.kickoffs[who.crew]? = some k) (change : Change ask k who.job? after)
    (written : t.Written who.crew k who.job? next after) : next.Watched busy := by
  obtain ⟨below, _⟩ := List.getElem?_eq_some_iff.mp standing
  obtain ⟨sound, manned, stands, once, alarmed, noted, awaiters, waits⟩ := watched
  -- Of the kickoffs of other crews nothing has changed.
  have mine : ∀ c k', next.kickoffs[c]? = some k' →
      (c = who.crew ∧ k' = after) ∨ (c ≠ who.crew ∧ t.kickoffs[c]? = some k') := by
    intro c k' there
    rw [written.kickoffs] at there
    by_cases here : c = who.crew
    · rw [here, List.getElem?_set_self below] at there
      exact .inl ⟨here, (Option.some.inj there).symm⟩
    · rw [List.getElem?_set_ne (Ne.symm here)] at there
      exact .inr ⟨here, there⟩
  refine ⟨?_, ?_, ?_, ?_, ?_, noted.sublist written.awaited, ?_, ?_⟩
  · rw [written.limiters]
    exact sound
  · rw [written.limiters, written.executions]
    exact manned
  · rw [written.limiters, written.executions]
    exact stands
  · rw [written.executions]
    exact once
  · rw [written.executions, written.alarms, written.now]
    exact alarmed
  · intro w member
    obtain ⟨same, k', there, has⟩ := awaiters w (written.awaited.subset member)
    refine ⟨same, ?_⟩
    rw [written.kickoffs]
    by_cases here : w.2.crew = who.crew
    · rw [here] at there ⊢
      cases standing.symm.trans there
      exact ⟨after, List.getElem?_set_self below, has.of_change change⟩
    · exact ⟨k', by rw [List.getElem?_set_ne (Ne.symm here), there], has⟩
  · intro other k' there has idle
    rcases mine other.crew k' there with ⟨sameCrew, rfl⟩ | ⟨elsewhere, before⟩
    · have apart : who.job? ≠ other.job? := by
        intro same
        exact idle (Actor.eq_of_same sameCrew same.symm ▸ turn)
      have standing : t.kickoffs[other.crew]? = some k := sameCrew ▸ standing
      by_cases old : k.Has other
      · exact (waits other k standing old idle).beside (sameCrew ▸ written) change apart old
      · cases other with
        | main c => exact absurd trivial old
        | job c j =>
            obtain rfl : c = who.crew := sameCrew
            rcases written.hired j (Nat.le_of_not_lt old) has with awake | done
            · exact .awake awake
            · exact .done done
    · exact (waits other k' before has idle).elsewhere written elsewhere

/-! ## Waiting for a job -/

theorem Watched.await {j : Nat} (watched : t.Watched busy) (standing : t.kickoffs[who.crew]? = some k)
    (awaits : k.awaitedBy? who = some j) (below : j < k.jobs.length)
    (unfinished : k.jobResult? j = none) :
    (t.await (.job who.crew j) who).Watched (busy \ {who}) := by
  have has := Kickoff.has_of_awaitedBy? awaits
  have more : t.awaited ⊆ (t.await (.job who.crew j) who).awaited ∧
      (.job who.crew j, who) ∈ (t.await (.job who.crew j) who).awaited ∧
      (t.await (.job who.crew j) who).awaited.Nodup ∧
      ∀ w ∈ (t.await (.job who.crew j) who).awaited, w ∈ t.awaited ∨ w = (.job who.crew j, who) := by
    unfold Timeline.await
    split
    · next already => exact ⟨fun _ => id, by simpa using already, watched.noted, fun _ => .inl⟩
    · next new =>
        refine ⟨List.subset_append_left .., by simp, ?_, ?_⟩
        · rw [List.nodup_append]
          refine ⟨watched.noted, by simp, ?_⟩
          intro w member w' same equal
          rw [List.mem_singleton] at same
          exact new (by simpa using same ▸ equal ▸ member)
        · intro w member
          rcases List.mem_append.mp member with old | here
          · exact .inl old
          · exact .inr (List.mem_singleton.mp here)
  have rest : (t.await (.job who.crew j) who) =
      { t with awaited := (t.await (.job who.crew j) who).awaited } := by
    unfold Timeline.await
    split <;> rfl
  revert more rest
  generalize (t.await (.job who.crew j) who).awaited = awaited
  intro more rest
  obtain ⟨grows, here, once, known⟩ := more
  rw [rest]
  have noted : ({ t with awaited } : Timeline).Watched busy := by
    refine { watched with noted := once, awaiters := ?_, waits := ?_ }
    · intro w member
      rcases known w member with old | rfl
      · exact watched.awaiters w old
      · exact ⟨rfl, k, standing, has⟩
    · intro other k' standing' there idle
      exact (watched.waits other k' standing' there idle).mono (fun _ => id) rfl rfl (fun _ => .inl)
        fun _ noted => grows noted
  exact noted.settled standing fun _ => .awaiting awaits below unfinished here

end Timeline

end CrewFlow.Crew
