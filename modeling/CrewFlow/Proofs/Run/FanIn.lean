import Mathlib
import CrewFlow.Proofs.Crew.Failures
import CrewFlow.Proofs.Crew.Rounds
import CrewFlow.Proofs.Crew.Timing
import CrewFlow.Proofs.Json.Fields
import CrewFlow.Run.Compiled
/-!
# Crews that fan in

The result of crews that ran side by side is put together of what each of them comes to alone, whoever they
share their agents with.
-/
set_option autoImplicit false

namespace CrewFlow.Run

open Crew (Answers ComesTo Limiters OneMoves RunTo exists_end_of_oneMoves runTo_iff runTo_of_runAll)
open Crew.Timeline (Idle Timeless)
open Json (Fields Value)
open Relation (ReflTransGen)
open Text (Inputs)

/-- What a crew comes to among others: it yields what it yields alone, or fails as it does alone. -/
inductive AsAlone (alone : Crew → Except ExecutionError CrewOutput) (crew : Crew) :
    Except ExecutionError CrewOutput → Prop where
  | succeeds {out : CrewOutput} (yields : alone crew = .ok out) : AsAlone alone crew (.ok out)
  | fails {message : String} {e : ExecutionError} (failed : alone crew = .error e) :
      AsAlone alone crew (.error (.crew crew.name message))

/-- The entry of a crew in what is gathered: the text that it yields alone, under its name. -/
def EntryOf (alone : Crew → Except ExecutionError CrewOutput) (crew : Crew) (entry : String × Value) : Prop :=
  ∃ out, alone crew = .ok out ∧ entry = (crew.name, .str out.raw)

/-- The text of a run that failed, which names the crew. -/
def ComplaintOf (run : Crew × Except ExecutionError CrewOutput) (text : String) : Prop :=
  ∃ message, run.2 = .error (.crew run.1.name message) ∧
    text = "crew '" ++ run.1.name ++ "' failed: " ++ message

/-- The result of crews that ran side by side is put together of what each of them comes to alone. -/
structure FansIn (alone : Crew → Except ExecutionError CrewOutput) (crews : List Crew)
    (outcomes : List (Except ExecutionError CrewOutput)) (result : Except ExecutionError Value) : Prop where
  each : List.Forall₂ (AsAlone alone) crews outcomes
  succeeds : result.isOk = true ↔ ∀ crew ∈ crews, (alone crew).isOk = true
  payload : ∀ v, result = .ok v → ∃ entries, v = .obj entries ∧ List.Forall₂ (EntryOf alone) crews entries
  failure : ∀ e, result = .error e → ∃ texts, e = .other ("; ".intercalate texts) ∧
    List.Forall₂ ComplaintOf ((crews.zip outcomes).filter fun run => !(alone run.1).isOk) texts

/-- A crew that belongs to two lists of crews comes to the same in both. -/
def Undisturbed (crews others : List Crew) (outcomes otherOutcomes : List (Except ExecutionError CrewOutput)) :
    Prop :=
  ∀ (c c' : Nat) crew, crews[c]? = some crew → others[c']? = some crew →
    ∃ outcome other, outcomes[c]? = some outcome ∧ otherOutcomes[c']? = some other ∧
      outcome.toOption = other.toOption

/-! ## What is gathered of outcomes -/

section Gathering
variable {alone : Crew → Except ExecutionError CrewOutput} {crews : List Crew}
  {outcomes : List (Except ExecutionError CrewOutput)} (each : List.Forall₂ (AsAlone alone) crews outcomes)

theorem keys_of_entries {entries : Fields} (related : List.Forall₂ (EntryOf alone) crews entries) :
    entries.map (·.1) = crews.map (·.name) := by
  induction related with
  | nil => rfl
  | cons first _ ih =>
      obtain ⟨out, _, rfl⟩ := first
      rw [List.map_cons, List.map_cons, ih]

include each

theorem failureTexts_eq_nil_iff : failureTexts outcomes = [] ↔ ∀ crew ∈ crews, (alone crew).isOk = true := by
  induction each with
  | nil => simp [failureTexts]
  | cons first _ ih =>
      rw [List.forall_mem_cons]
      cases first with
      | succeeds yields =>
          rw [yields]
          exact ih.trans (and_iff_right rfl).symm
      | fails failed =>
          rw [failed]
          exact ⟨fun nothing => (List.cons_ne_nil _ _ nothing).elim, fun succeed => nomatch succeed.1⟩

/-- The texts of failures are those of the crews that fail alone, in the order of the crews. -/
theorem failureTexts_correspond :
    List.Forall₂ ComplaintOf ((crews.zip outcomes).filter fun run => !(alone run.1).isOk)
      (failureTexts outcomes) := by
  induction each with
  | nil => exact .nil
  | @cons crew outcome _ _ first _ ih =>
      rw [List.zip_cons_cons, List.filter_cons]
      cases first with
      | succeeds yields =>
          rw [yields]
          exact ih
      | fails failed =>
          rw [failed]
          exact .cons ⟨_, rfl, rfl⟩ ih

theorem entries_correspond (succeed : ∀ crew ∈ crews, (alone crew).isOk = true) :
    List.Forall₂ (EntryOf alone) crews
      ((crews.zip outcomes).filterMap fun
        | (c, .ok o) => some (c.name, Value.str o.raw)
        | _ => none) := by
  induction each with
  | nil => exact .nil
  | cons first _ ih =>
      rw [List.forall_mem_cons] at succeed
      cases first with
      | succeeds yields => exact .cons ⟨_, yields, rfl⟩ (ih succeed.2)
      | fails failed =>
          rw [failed] at succeed
          cases succeed.1

/-- What crews with names of their own come to fans in. -/
theorem fansIn_gathered (names : (crews.map (·.name)).Nodup) :
    FansIn alone crews outcomes (gathered crews outcomes) := by
  have allSucceed := failureTexts_eq_nil_iff each
  unfold gathered
  split
  · next nothing =>
      -- The keys are the names of the crews, so no entry takes the place of another.
      have entries := entries_correspond each (allSucceed.mp nothing)
      have kept := Fields.ofList_eq_self (keys_of_entries entries ▸ names)
      refine ⟨each, iff_of_true rfl (allSucceed.mp nothing), ?_, nofun⟩
      rintro _ ⟨⟩
      exact ⟨_, rfl, kept.symm ▸ entries⟩
  · next some =>
      refine ⟨each, iff_of_false nofun fun succeed => some (allSucceed.mpr succeed), nofun, ?_⟩
      rintro _ ⟨⟩
      exact ⟨_, rfl, failureTexts_correspond each⟩

end Gathering

/-! ## Crews by any schedule -/

section Schedules
variable {ask : Answers} {crew : Crew} {crews others : List Crew} {inputs : Inputs}
  {outcomes otherOutcomes : List (Except ExecutionError CrewOutput)}

theorem runTo_singleton_iff {outcome : Except ExecutionError CrewOutput} :
    RunTo ask [crew] inputs [outcome] ↔ ComesTo ask crew inputs outcome := by
  rw [runTo_iff, List.forall₂_cons]
  exact and_iff_left .nil

theorem asAlone_of_comesTo (distinct : (crew.tasks.map (·.name)).Nodup) (forgetful : crew.embedder = none)
    {alone : Crew → Except ExecutionError CrewOutput} {outcome : Except ExecutionError CrewOutput}
    (among : ComesTo ask crew inputs outcome) (lone : ComesTo ask crew inputs (alone crew)) :
    AsAlone alone crew outcome := by
  have same := among.toOption_eq distinct forgetful lone
  cases outcome with
  | ok out =>
      cases comes : alone crew with
      | ok other =>
          rw [comes] at same
          cases same
          exact .succeeds comes
      | error e =>
          rw [comes] at same
          cases same
  | error e =>
      obtain ⟨message, rfl⟩ := among.error_eq forgetful
      cases comes : alone crew with
      | ok other =>
          rw [comes] at same
          cases same
      | error e => exact .fails comes

theorem undisturbed_of_runTo
    (plain : ∀ crew ∈ crews, (crew.tasks.map (·.name)).Nodup ∧ crew.embedder = none)
    (here : RunTo ask crews inputs outcomes) (there : RunTo ask others inputs otherOutcomes) :
    Undisturbed crews others outcomes otherOutcomes := by
  have each := runTo_iff.mp here
  have eachOther := runTo_iff.mp there
  intro c c' crew first second
  obtain ⟨inside, rfl⟩ := List.getElem?_eq_some_iff.mp first
  obtain ⟨inOther, same⟩ := List.getElem?_eq_some_iff.mp second
  have outside : c < outcomes.length := by rw [← each.length_eq]; exact inside
  have outOther : c' < otherOutcomes.length := by rw [← eachOther.length_eq]; exact inOther
  have comes : ComesTo ask crews[c] inputs outcomes[c] := each.get inside outside
  have comesOther : ComesTo ask others[c'] inputs otherOutcomes[c'] := eachOther.get inOther outOther
  obtain ⟨distinct, forgetful⟩ := plain crews[c] (List.getElem_mem inside)
  exact ⟨outcomes[c], otherOutcomes[c'], List.getElem?_eq_getElem outside, List.getElem?_eq_getElem outOther,
    comes.toOption_eq distinct forgetful (same ▸ comesOther)⟩

end Schedules

/-! ## Crews in time -/

section Time
variable {crew : Crew} {crews : List Crew} {clock : Clock}

theorem runTo_runSideBySide (timeless : Timeless crews) (idle : Idle clock.limiters) (inputs : Inputs) :
    RunTo Agent.reply crews inputs (runSideBySide crews inputs clock).1 := by
  obtain ⟨ending, ended⟩ := Crew.exists_ending idle timeless inputs clock.now clock.rank clock.left
  rw [runSideBySide, ended]
  exact runTo_of_runAll timeless ended

theorem comesTo_runCrew (timeless : Timeless [crew]) (idle : Idle clock.limiters) (inputs : Inputs) :
    ComesTo Agent.reply crew inputs (runCrew crew inputs clock).1 := by
  have each := runTo_iff.mp (runTo_runSideBySide timeless idle inputs)
  unfold runCrew
  generalize runSideBySide [crew] inputs clock = run at each
  obtain ⟨outcomes, after⟩ := run
  cases each with
  | cons comes _ => exact comes

end Time

/-- Crews of different names, each without memory and with tasks of different names, whose agents have no time
limits, fan in without interference. Whoever moves first, and however far they have come, they can come to their
ends. The run succeeds if each crew succeeds alone, and then has the text that each yields alone under its name,
in the order of the crews; otherwise it fails with the texts of the crews that fail alone, in that order, which
name them. What a crew comes to is the same among any other crews. In time, crews and lone crews come to their
ends, whatever the clocks say and however often agents may ask. -/
theorem crews_fan_in_without_interference {crews : List Crew} {inputs : Inputs}
    (names : (crews.map (·.name)).Nodup) (distinct : ∀ crew ∈ crews, (crew.tasks.map (·.name)).Nodup)
    (timeless : Timeless crews) :
    (∀ ask kickoffs, ReflTransGen (OneMoves ask) (crews.map fun crew => .start crew inputs) kickoffs →
      ∃ last outcomes, ReflTransGen (OneMoves ask) kickoffs last ∧
        List.Forall₂ (fun k outcome => k.result? = some outcome) last outcomes) ∧
    (∀ ask outcomes alone, RunTo ask crews inputs outcomes →
      (∀ crew ∈ crews, RunTo ask [crew] inputs [alone crew]) →
      FansIn alone crews outcomes (gathered crews outcomes)) ∧
    (∀ ask others outcomes otherOutcomes, RunTo ask crews inputs outcomes →
      RunTo ask others inputs otherOutcomes → Undisturbed crews others outcomes otherOutcomes) ∧
    (∀ (clock : Clock) (clocks : Crew → Clock), Idle clock.limiters →
      (∀ crew ∈ crews, Idle (clocks crew).limiters) →
      RunTo Agent.reply crews inputs (runSideBySide crews inputs clock).1 ∧
      (∀ crew ∈ crews, RunTo Agent.reply [crew] inputs [(runCrew crew inputs (clocks crew)).1]) ∧
      ∀ workflowId flowId, FansIn (fun crew => (runCrew crew inputs (clocks crew)).1) crews
        (runSideBySide crews inputs clock).1
        ((Compiled.parallel crews).run inputs workflowId flowId clock).result) ∧
    ∀ (others : List Crew) (clock otherClock : Clock), Timeless others → Idle clock.limiters →
      Idle otherClock.limiters →
      Undisturbed crews others (runSideBySide crews inputs clock).1 (runSideBySide others inputs otherClock).1 := by
  have plain : ∀ crew ∈ crews, (crew.tasks.map (·.name)).Nodup ∧ crew.embedder = none :=
    fun crew member => ⟨distinct crew member, (timeless crew member).1⟩
  have fansIn : ∀ {ask outcomes alone}, RunTo ask crews inputs outcomes →
      (∀ crew ∈ crews, RunTo ask [crew] inputs [alone crew]) →
      FansIn alone crews outcomes (gathered crews outcomes) := by
    intro ask outcomes alone among lone
    have each := runTo_iff.mp among
    refine fansIn_gathered (List.forall₂_iff_zip.mpr ⟨each.length_eq, fun {crew outcome} together => ?_⟩) names
    have member := (List.of_mem_zip together).1
    obtain ⟨distinct, forgetful⟩ := plain crew member
    exact asAlone_of_comesTo distinct forgetful (List.forall₂_zip each together)
      (runTo_singleton_iff.mp (lone crew member))
  refine ⟨fun ask kickoffs => exists_end_of_oneMoves plain, fun ask outcomes alone => fansIn,
    fun ask others outcomes otherOutcomes => undisturbed_of_runTo plain, ?_, ?_⟩
  · intro clock clocks idle idles
    have among := runTo_runSideBySide timeless idle inputs
    have lone : ∀ crew ∈ crews, RunTo Agent.reply [crew] inputs [(runCrew crew inputs (clocks crew)).1] := by
      intro crew member
      have itself : Timeless [crew] := fun other same => timeless other (List.mem_singleton.mp same ▸ member)
      exact runTo_singleton_iff.mpr (comesTo_runCrew itself (idles crew member) inputs)
    exact ⟨among, lone, fun workflowId flowId => fansIn among lone⟩
  · intro others clock otherClock timelessOthers idle idleOther
    exact undisturbed_of_runTo plain (runTo_runSideBySide timeless idle inputs)
      (runTo_runSideBySide timelessOthers idleOther inputs)

def typist : Agent := { Crew.writer with limits := ⟨Agent.defaultMaxIter, none, some 1⟩ }

def shifts : List Crew :=
  [{ Crew.desk with agents := [typist] }, { Crew.desk with name := "night desk", agents := [typist] }]

/-- The desks wait for each other's typist, and both of them come to the text that they yield alone. -/
theorem shifts_fan_in :
    ∃ entries, ((Compiled.parallel shifts).run [] none "run" (.ofAgents [typist] .ahead 0)).result =
        .ok (.obj entries) ∧
      List.Forall₂ (EntryOf fun crew => (runCrew crew [] (.ofAgents [typist] .ahead 0)).1) shifts entries ∧
      Undisturbed shifts (shifts.take 1) (runSideBySide shifts [] (.ofAgents [typist] .ahead 0)).1
        (runSideBySide (shifts.take 1) [] (.ofAgents [typist] .inLine 5)).1 := by
  have timeless : Timeless shifts := by
    intro crew member
    have crewOf : crew.embedder = none ∧ crew.manager = none ∧ crew.agents = [typist] := by
      rcases List.mem_pair.mp member with rfl | rfl
      · exact ⟨rfl, rfl, rfl⟩
      · exact ⟨rfl, rfl, rfl⟩
    refine ⟨crewOf.1, fun agent employed => ?_⟩
    rw [Crew.Kickoff.Employs, crewOf.2.1, crewOf.2.2] at employed
    rcases employed with pool | manager
    · cases List.mem_singleton.mp pool
      rfl
    · cases manager
  have idle : ∀ rank now, Idle (Clock.ofAgents [typist] rank now).limiters := by
    intro rank now entry member
    cases List.mem_singleton.mp member
    rfl
  obtain ⟨_, _, _, timed, undisturbed⟩ := @crews_fan_in_without_interference shifts []
    (by decide) (by decide) timeless
  obtain ⟨_, _, fansIn⟩ := timed (.ofAgents [typist] .ahead 0) (fun _ => .ofAgents [typist] .ahead 0)
    (idle .ahead 0) fun _ _ => idle .ahead 0
  have succeeds : ((Compiled.parallel shifts).run [] none "run"
      (.ofAgents [typist] .ahead 0)).result.isOk = true := by decide +kernel
  cases result : ((Compiled.parallel shifts).run [] none "run" (.ofAgents [typist] .ahead 0)).result with
  | error e =>
      rw [result] at succeeds
      cases succeeds
  | ok v =>
      obtain ⟨entries, rfl, each⟩ := (fansIn none "run").payload v result
      exact ⟨entries, rfl, each, undisturbed (shifts.take 1) _ _
        (fun crew member => timeless crew (List.mem_of_mem_take member)) (idle .ahead 0) (idle .inLine 5)⟩

end CrewFlow.Run
