import Mathlib
import CrewFlow.Proofs.Flow.Safety
import CrewFlow.Proofs.Spec.Keyed
/-!
# Flows without routers

Without routers nothing is passed over, so a step that a walk has left undone listens to one that it has left
undone as well. Methods do not listen in a circle, and so a walk in which no crew fails leaves nothing undone.
Its queue only grows at the end, so what starts comes first.
-/
set_option autoImplicit false

namespace CrewFlow.Flow

open Spec (Acyclic Listens MethodSpec Workflow)
open Text (Inputs)

/-! ## What starts comes first -/

section Starts
variable {σ : Type} {runner : Runner σ} {crews : List Crew} {inputs : Inputs} {g : Graph}

theorem prefix_enqueue (executed suppressed : List String) : ∀ (listeners : List Step) (queue : List String),
    queue <+: enqueue executed suppressed queue listeners := by
  intro listeners
  induction listeners with
  | nil => exact fun queue => List.prefix_rfl
  | cons l rest ih =>
      intro queue
      rw [enqueue]
      refine List.IsPrefix.trans ?_ (ih _)
      split
      · exact List.prefix_append _ _
      · exact List.prefix_rfl

theorem prefix_queueAfter (v : Visit) (executed queue : List String) :
    queue <+: queueAfter g v.step v.state executed queue := by
  rw [queueAfter_eq]
  exact (List.prefix_append _ _).trans (prefix_enqueue ..)

/-- A list whose beginning stands in two others, one behind the other, keeps it when a name is left out that
stands in the first of them. -/
theorem prefix_of_leaveOut {names executed queue : List String} {name : String} (distinct : names.Nodup)
    (starts : names <+: executed ++ name :: queue) (done : name ∈ executed) : names <+: executed ++ queue := by
  -- The name would otherwise be the next of `names`, and stand there twice.
  rcases List.prefix_or_prefix_of_prefix starts (List.prefix_append executed _) with short | long
  · exact short.trans (List.prefix_append _ _)
  · obtain ⟨rest, rfl⟩ := long
    cases rest with
    | nil => exact ⟨queue, by simp⟩
    | cons first rest =>
        rw [List.prefix_append_right_inj, List.cons_prefix_cons] at starts
        obtain ⟨rfl, _⟩ := starts
        exact absurd done (List.disjoint_of_nodup_append distinct · List.mem_cons_self)

theorem Passage.starts_prefix (distinct : g.stepNames.Nodup) {state : State} {world : σ} {visits : List Visit}
    {last : Walk σ} (passage : Passage runner crews inputs g (.start g state world) visits last) :
    g.starts.map (·.name) <+: last.executed ++ last.queue := by
  have apart : (g.starts.map (·.name)).Nodup := distinct.sublist (List.filter_sublist.map _)
  refine passage.preserves (fun _ w => g.starts.map (·.name) <+: w.executed ++ w.queue) List.prefix_rfl ?_
  intro before w visit next starts round
  cases round with
  | leaveOut waiting done =>
      rw [waiting] at starts
      exact prefix_of_leaveOut apart starts done
  | @visit name queue s state produced world waiting fresh found acted =>
      obtain rfl := Graph.step?_name found
      rw [waiting, List.append_cons] at starts
      exact starts.trans ((List.prefix_append_right_inj _).mpr (prefix_queueAfter ⟨s, state.mark s.name⟩ _ _))

end Starts

/-! ## What is left undone -/

section Undone
variable {σ : Type} {g : Graph} {visits : List Visit} {w : Walk σ}

/-- Without routers, a step that was left undone waits for one that was left undone. -/
theorem exists_undone (routerless : ∀ s ∈ g.steps, s.router? = none) (sound : Sound g visits w)
    (complete : Complete g visits w) (nothing : w.queue = []) {l : Step} (member : l ∈ g.steps)
    (undone : l.name ∉ visitedNames visits) :
    l.isStart = false ∧ (l.trigger.1 ≠ [] → ∃ p ∈ l.trigger.1, p ∉ visitedNames visits) := by
  have passes : ∀ v ∈ visits, ¬ v.PassesOver l.name := by
    rintro v visited ⟨condition, routes, router, _⟩
    rw [routerless v.step (sound.steps v visited)] at router
    cases router
  obtain ⟨later, _, any, all⟩ := untriggered_of_complete sound.log complete nothing member undone
  refine ⟨later, fun some => ?_⟩
  cases join : l.trigger.2 with
  | any =>
      obtain ⟨p, listens⟩ := List.exists_mem_of_ne_nil _ some
      refine ⟨p, listens, fun done => ?_⟩
      obtain ⟨v, visited, rfl⟩ := mem_visitedNames.mp done
      exact passes v visited (any join v visited listens)
  | all =>
      rcases all join some with missing | ⟨before, v, after, rfl, _, _, passed⟩
      · exact missing
      · exact absurd passed (passes v (List.mem_append_right _ List.mem_cons_self))

end Undone

/-! ## Methods -/

/-- What holds of a method when it holds of every declared one that it listens to, holds of all. -/
theorem acyclic_induction {methods : List MethodSpec} (acyclic : Acyclic methods) {P : String → Prop}
    (step : ∀ n ∈ methods.map (·.name),
      (∀ p ∈ methods.map (·.name), Listens methods n p → P p) → P n) :
    ∀ n ∈ methods.map (·.name), P n := by
  -- There are finitely many names, so an order in which none stands before itself is well founded.
  let before (p n : { name // name ∈ methods.map (·.name) }) : Prop :=
    Relation.TransGen (Listens methods) n.1 p.1
  have : IsTrans _ before := ⟨fun _ _ _ first second => second.trans first⟩
  have : Std.Irrefl before := ⟨fun n loop => acyclic n.1 loop⟩
  have : Finite { name // name ∈ methods.map (·.name) } := (List.finite_toSet _).to_subtype
  have wellFounded : WellFounded before := Finite.wellFounded_of_trans_of_irrefl before
  intro n declared
  refine wellFounded.induction (C := fun n => P n.1) ⟨n, declared⟩ fun n ih => ?_
  exact step n.1 n.2 fun p known listens => ih ⟨p, known⟩ (.single listens)

/-- The names of the methods that start: those that are declared to, or else the first. -/
def startNames (methods : List MethodSpec) : List String :=
  if methods.any fun m => m.kind == .start then
    (methods.filter fun m => m.kind == .start).map (·.name)
  else (methods.take 1).map (·.name)

section Methods
variable {methods : List MethodSpec}

theorem isStart_methodStep (m : MethodSpec) : (methodStep false m).isStart = (m.kind == .start) := by
  cases kind : m.kind <;> simp [methodStep, Step.isStart, kind]

theorem mapIdx_methodStep (methods : List MethodSpec) :
    methods.mapIdx (fun _ m => methodStep false m) = methods.map (methodStep false) := by
  refine List.ext_getElem? fun i => ?_
  rw [List.getElem?_mapIdx, List.getElem?_map]

theorem names_starts (name : String) (methods : List MethodSpec) :
    (Graph.starts ⟨name, declaredSteps methods⟩).map (·.name) = startNames methods := by
  have plain : ∀ ms : List MethodSpec, ((ms.map (methodStep false)).filter Step.isStart).map (·.name) =
      (ms.filter fun m => m.kind == .start).map (·.name) := by
    intro ms
    have same : Step.isStart ∘ methodStep false = fun m => m.kind == .start := funext isStart_methodStep
    rw [List.filter_map, List.map_map, same]
    rfl
  rw [Graph.starts, startNames, declaredSteps]
  by_cases declared : (methods.any fun m => m.kind == .start) = true
  · simp only [declared, Bool.not_true, Bool.false_and, if_true]
    rw [mapIdx_methodStep, plain]
  · cases methods with
    | nil => rfl
    | cons m rest =>
        rw [Bool.not_eq_true] at declared
        have others : (rest.filter fun m => m.kind == .start) = [] := by
          rw [List.any_cons, Bool.or_eq_false_iff] at declared
          exact List.filter_eq_nil_iff.mpr fun m member => by simp [List.any_eq_false.mp declared.2 m member]
        simp only [declared, Bool.not_false, Bool.true_and, List.mapIdx_cons]
        have first : (methodStep (0 == 0) m).isStart = true := rfl
        have tail : rest.mapIdx (fun i m => methodStep (i + 1 == 0) m) = rest.map (methodStep false) :=
          mapIdx_methodStep rest
        rw [tail, List.filter_cons_of_pos first, List.map_cons, plain, others]
        rfl

theorem exists_method (routerless : ∀ m ∈ methods, m.kind ≠ .router) {s : Step}
    (member : s ∈ declaredSteps methods) (later : s.isStart = false) :
    ∃ m ∈ methods, m.kind ≠ .start ∧ s.name = m.name ∧ s.trigger = (m.listenTo, m.join) ∧
      ∀ p ∈ m.listenTo, Listens methods m.name p := by
  obtain ⟨i, below, rfl⟩ := List.mem_mapIdx.mp member
  have declared := List.getElem_mem below
  cases promoted : (!methods.any fun m => m.kind == .start) && i == 0 with
  | true =>
      rw [promoted] at later
      cases later
  | false =>
      rw [promoted] at later
      rw [isStart_methodStep] at later
      have waits : methods[i].kind ≠ .start := by simpa using later
      refine ⟨methods[i], declared, waits, rfl, ?_, fun p listed => ?_⟩
      · cases kind : methods[i].kind with
        | start => exact absurd kind waits
        | listen => simp [methodStep, Step.trigger, kind]
        | router => exact absurd kind (routerless _ declared)
      · refine .edge (List.getElem?_eq_getElem below) rfl waits (fun first => ?_) listed
        rw [first] at promoted
        simpa using promoted

theorem router?_declaredSteps (routerless : ∀ m ∈ methods, m.kind ≠ .router) :
    ∀ s ∈ declaredSteps methods, s.router? = none := by
  intro s member
  obtain ⟨promoted, m, declared, rfl⟩ := mem_declaredSteps member
  cases promoted with
  | true => rfl
  | false =>
      cases kind : m.kind with
      | router => exact absurd kind (routerless m declared)
      | _ => simp [methodStep, Step.router?, kind]

end Methods

/-! ## Whole runs -/

section Runs
variable {σ : Type} {runner : Runner σ} {crews : List Crew} {inputs : Inputs} {g : Graph} {state : State}
  {world : σ}

/-- No step that a run comes to fails with its crew: the crew yields a text, and the text can be stored. -/
def CrewsSucceed (runner : Runner σ) (crews : List Crew) (inputs : Inputs) (g : Graph) (state : State)
    (world : σ) : Prop :=
  ∀ visits last s queue e, Passage runner crews inputs g (.start g state world) visits last → s ∈ g.steps →
    last.queue = s.name :: queue → s.name ∉ last.executed →
    ¬ CrewFailure runner crews inputs s last.state last.world e

theorem Passage.ended_of_succeed (whole : Whole g (crews.map (·.name))) {visits : List Visit} {last : Walk σ}
    {ending : Walk σ × Option ExecutionError}
    (passage : Passage runner crews inputs g (.start g state world) visits last)
    (halt : Halt runner crews inputs g last ending)
    (succeed : CrewsSucceed runner crews inputs g state world) : ending.2 = none := by
  rcases passage.halt_of_whole whole halt with ended | ⟨s, member, queue, e, waiting, failed, failure⟩
  · exact ended
  · refine absurd failure (succeed visits last s queue e passage member waiting ?_)
    cases halt with
    | done nothing => cases failed
    | missing waits fresh absent =>
        cases waiting.symm.trans waits
        exact fresh
    | failed waits fresh found acted =>
        cases waiting.symm.trans waits
        exact fresh

theorem exists_end (whole : Whole g (crews.map (·.name)))
    (succeed : CrewsSucceed runner crews inputs g state world) :
    ∃ visits, ∃ last : Walk σ, Sound g visits last ∧ Complete g visits last ∧ last.queue = [] ∧
      (run runner crews g inputs state world).2 = none ∧
      (run runner crews g inputs state world).1.executed = visitedNames visits ∧
      g.starts.map (·.name) <+: visitedNames visits := by
  obtain ⟨visits, last, passage, halt⟩ := exists_halt runner crews inputs g (.start g state world)
  obtain ⟨sound, complete⟩ := passage.preserves (fun visits w => Sound g visits w ∧ Complete g visits w)
    ⟨sound_start whole.distinct state world, complete_start g state world⟩
    (fun before w visit next kept round =>
      ⟨sound_round whole.distinct before w visit next kept.1 round,
        complete_round before w visit next kept.1.log kept.2 round⟩)
  have ended := passage.ended_of_succeed whole halt succeed
  have nothing := halt.queue_eq_nil ended
  have first := passage.starts_prefix whole.distinct
  rw [nothing, List.append_nil, sound.log] at first
  exact ⟨visits, last, sound, complete, nothing, ended, halt.executed_eq.trans sound.log, first⟩

/-- A step that does not start comes behind what it waits for: behind all of it, or behind some of it, as it
joins them. -/
theorem Sound.behind {visits : List Visit} {last : Walk σ} (sound : Sound g visits last)
    (routerless : ∀ s ∈ g.steps, s.router? = none) {before after : List String} {name : String}
    (split : visitedNames visits = before ++ name :: after) :
    ∃ s ∈ g.steps, s.name = name ∧ (s.isStart = true ∨
      (s.trigger.2 = .all → ∀ p ∈ s.trigger.1, p ∈ before) ∧
      (s.trigger.2 = .any → ∃ p ∈ s.trigger.1, p ∈ before)) := by
  obtain ⟨earlier, rest, rfl, rfl, behind⟩ := List.map_eq_append_iff.mp split
  obtain ⟨v, later, rfl, rfl, rfl⟩ := List.map_eq_cons_iff.mp behind
  refine ⟨v.step, sound.steps v (List.mem_append_right _ List.mem_cons_self), rfl, ?_⟩
  cases sound.triggered earlier v later rfl with
  | start first => exact .inl first
  | chosen router came choice =>
      have plain := routerless router.step (sound.steps router (List.mem_append_left _ came))
      simp [Visit.chosen?, Flow.choice, plain] at choice
  | all join listens done =>
      rw [join]
      exact .inr ⟨fun _ => done, by simp⟩
  | any join p listens done =>
      rw [join]
      exact .inr ⟨by simp, fun _ => ⟨p, listens, done⟩⟩

end Runs

section Declared
variable {σ : Type} {title : String} {methods : List MethodSpec} {visits : List Visit} {last : Walk σ}

theorem mem_visitedNames_of_declared (routerless : ∀ m ∈ methods, m.kind ≠ .router) (acyclic : Acyclic methods)
    (waits : ∀ m ∈ methods, m.kind ≠ .start → m.listenTo ≠ [])
    (linked : ∀ m ∈ methods, ∀ p ∈ m.listenTo, p ∈ methods.map (·.name))
    (sound : Sound ⟨title, declaredSteps methods⟩ visits last)
    (complete : Complete ⟨title, declaredSteps methods⟩ visits last) (nothing : last.queue = []) :
    ∀ name ∈ methods.map (·.name), name ∈ visitedNames visits := by
  -- The induction is on who listens to whom: whoever is undone hears from somebody who is undone.
  refine acyclic_induction acyclic fun name declared heard => ?_
  by_contra undone
  obtain ⟨s, member, rfl⟩ := List.mem_map.mp (names_declaredSteps methods ▸ declared)
  obtain ⟨later, waiting⟩ :=
    exists_undone (router?_declaredSteps routerless) sound complete nothing member undone
  obtain ⟨m, isMethod, notStart, named, trigger, listens⟩ := exists_method routerless member later
  rw [trigger] at waiting
  obtain ⟨p, listed, missing⟩ := waiting (waits m isMethod notStart)
  exact missing (heard p (linked m isMethod p listed) (named ▸ listens p listed))

theorem method_behind (routerless : ∀ m ∈ methods, m.kind ≠ .router) (distinct : (methods.map (·.name)).Nodup)
    (sound : Sound ⟨title, declaredSteps methods⟩ visits last) {m : MethodSpec} (declared : m ∈ methods)
    (notFirst : m.name ∉ startNames methods) {before after : List String}
    (split : visitedNames visits = before ++ m.name :: after) :
    (m.join = .all → ∀ p ∈ m.listenTo, p ∈ before) ∧ (m.join = .any → ∃ p ∈ m.listenTo, p ∈ before) := by
  obtain ⟨s, member, named, outcome⟩ := sound.behind (router?_declaredSteps routerless) split
  have later : s.isStart = false := by
    by_contra first
    have starts : s.name ∈ (Graph.starts ⟨title, declaredSteps methods⟩).map (·.name) :=
      List.mem_map_of_mem (List.mem_filter.mpr ⟨member, by simpa using first⟩)
    rw [names_starts, named] at starts
    exact notFirst starts
  obtain ⟨other, isMethod, _, own, trigger, _⟩ := exists_method routerless member later
  obtain rfl : other = m := List.inj_on_of_nodup_map distinct isMethod declared (own.symm.trans named)
  rw [trigger] at outcome
  exact outcome.resolve_left (by simp [later])

end Declared

/-- A flow that has passed validation, declares methods and has no router among them runs completely unless a
crew fails it. Every method is executed once. First come the methods that start, in the order of their
declaration; where none is declared to start, the first method does. Of the others each comes behind all of
the methods that it listens to, or behind one of them, as it joins them. -/
theorem routerless_flow_runs_completely {w : Workflow} (validated : Spec.Validated w) (methods : w.methods ≠ [])
    (routerless : ∀ m ∈ w.methods, m.kind ≠ .router) {σ : Type} (runner : Runner σ) (crews : List Crew)
    (built : crews.map (·.name) = w.crews.map (·.name)) (inputs : Inputs) (flowId : String)
    (workflowId : Option String) (world : σ) :
    let state := State.start flowId w.state (Graph.ofWorkflow w).stepNames workflowId
    CrewsSucceed runner crews inputs (.ofWorkflow w) state world →
    let ending := run runner crews (.ofWorkflow w) inputs state world
    let executed := ending.1.executed
    ending.2 = none ∧ executed.Perm (w.methods.map (·.name)) ∧ startNames w.methods <+: executed ∧
      ∀ m ∈ w.methods, m.name ∉ startNames w.methods → ∀ before after, executed = before ++ m.name :: after →
        (m.join = .all → ∀ p ∈ m.listenTo, p ∈ before) ∧ (m.join = .any → ∃ p ∈ m.listenTo, p ∈ before) := by
  intro state succeed
  have formed := validated.wellFormed
  have flow : w.orchestration = .flow := by
    cases kind : w.orchestration with
    | flow => rfl
    | crew => exact absurd (formed.bare kind).2 methods
  have whole := whole_ofWorkflow formed flow
  rw [← built] at whole
  obtain ⟨visits, last, sound, complete, nothing, ended, executed, first⟩ := exists_end whole succeed
  have graph : Graph.ofWorkflow w = ⟨w.displayName, declaredSteps w.methods⟩ := by
    rw [Graph.ofWorkflow, if_neg (by simpa using methods)]
  rw [graph] at sound complete first
  rw [names_starts] at first
  have flowFormed := formed.flow flow
  have done := mem_visitedNames_of_declared routerless flowFormed.acyclic
    (fun m member => (flowFormed.equipped m member).predecessor)
    (fun m member => (flowFormed.linked m member).listens) sound complete nothing
  simp only [executed]
  refine ⟨ended, ?_, first, fun m member notFirst before after split => ?_⟩
  · rw [List.perm_ext_iff_of_nodup sound.once formed.methodNames.distinct]
    refine fun name => ⟨fun visited => ?_, done name⟩
    obtain ⟨v, isVisit, rfl⟩ := mem_visitedNames.mp visited
    rw [← names_declaredSteps]
    exact List.mem_map_of_mem (sound.steps v isVisit)
  · exact method_behind routerless formed.methodNames.distinct sound member notFirst split

theorem crewsSucceed_of_noop {σ : Type} {g : Graph} (noop : ∀ s ∈ g.steps, s.action = .noop)
    (runner : Runner σ) (crews : List Crew) (inputs : Inputs) (state : State) (world : σ) :
    CrewsSucceed runner crews inputs g state world := by
  intro visits last s queue e passage member waiting fresh failure
  have idle := noop s member
  cases failure with
  | kickoff action => cases idle.symm.trans action
  | output action => cases idle.symm.trans action

def listening (name : String) (others : List String) : Json.Value :=
  .obj [("name", .str name), ("type", .str "listen"), ("listen_to", .arr (others.map .str))]

def relay : Spec.Parsed where
  fields := [
    ("agents", .arr [.obj [("role", .str "me"), ("goal", .str "look"), ("backstory", .str "me")]]),
    ("tasks", .arr [.obj [("name", .str "t"), ("description", .str "look"), ("expected_output", .str "it")]]),
    ("crews", .arr [.obj [("name", .str "us")]]),
    ("flow_methods", .arr [listening "publish" ["check", "gather"], listening "check" ["gather"],
      .obj [("name", .str "gather"), ("type", .str "start")]])]
  orchestration := .flow

theorem relay_named : Spec.StateNamed relay := by
  intro decls found
  cases found

def idle (name : String) : Crew :=
  { name, agents := [], tasks := [], process := .sequential, manager := none, embedder := none }

theorem relay_runs_completely :
    ∃ w, Spec.Validated w ∧
      let ending := run noCrew [idle "us"] (.ofWorkflow w) []
        (.start "run" w.state (Graph.ofWorkflow w).stepNames none) ()
      ending.2 = none ∧ ending.1.executed.Perm ["publish", "check", "gather"] ∧
        ["gather"] <+: ending.1.executed := by
  have evaluated : (Spec.validate relay).toOption.map (fun w => (w.methods.map (·.name),
      startNames w.methods, w.methods.all (·.kind != .router), w.crews.map (·.name),
      (Graph.ofWorkflow w).steps.all (·.action == .noop))) =
      some (["publish", "check", "gather"], ["gather"], true, ["us"], true) := by
    decide +kernel
  cases checked : Spec.validate relay with
  | error e => simp [checked, Except.toOption] at evaluated
  | ok w =>
      simp only [checked, Except.toOption, Option.map_some, Option.some.injEq, Prod.mk.injEq] at evaluated
      obtain ⟨names, starts, plain, crews, noop⟩ := evaluated
      have methods : w.methods ≠ [] := by
        intro none
        simp [none] at names
      have routerless : ∀ m ∈ w.methods, m.kind ≠ .router := by simpa using plain
      have steps : ∀ s ∈ (Graph.ofWorkflow w).steps, s.action = .noop := by simpa using noop
      obtain ⟨ended, all, first, _⟩ := routerless_flow_runs_completely (.document relay_named checked) methods
        routerless noCrew [idle "us"] crews.symm [] "run" none () (crewsSucceed_of_noop steps _ _ _ _ _)
      rw [names] at all
      rw [starts] at first
      exact ⟨w, .document relay_named checked, ended, all, first⟩

end CrewFlow.Flow
