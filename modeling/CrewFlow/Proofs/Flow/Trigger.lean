import Mathlib
import CrewFlow.Proofs.Flow.Trail
/-!
# Triggers of walks

Two facts about every walk over a graph whose steps have different names. A step is visited at most once,
and only after something has triggered it. And nothing that triggers a step is lost: in a walk that ends
well, a step that was not visited has not been triggered. Each is carried through the rounds by an
invariant on the queue.
-/
set_option autoImplicit false

namespace CrewFlow.Flow

open Text (Inputs)

/-- What may have triggered a step by the time some visits have been made. -/
inductive Triggered (before : List Visit) (s : Step) : Prop where
  | start (first : s.isStart)
  | chosen (router : Visit) (earlier : router ∈ before) (choice : router.chosen? = some s.name)
  | all (join : s.trigger.2 = .all) (listens : s.trigger.1 ≠ [])
      (done : ∀ p ∈ s.trigger.1, p ∈ visitedNames before)
  | any (join : s.trigger.2 = .any) (p : String) (listens : p ∈ s.trigger.1)
      (done : p ∈ visitedNames before)

theorem Triggered.mono {before : List Visit} {s : Step} (triggered : Triggered before s)
    (later : List Visit) : Triggered (before ++ later) s := by
  cases triggered with
  | start first => exact .start first
  | chosen router earlier choice => exact .chosen router (List.mem_append_left _ earlier) choice
  | all join listens done =>
      refine .all join listens fun p member => ?_
      rw [visitedNames_append]
      exact List.mem_append_left _ (done p member)
  | any join p listens done =>
      refine .any join p listens ?_
      rw [visitedNames_append]
      exact List.mem_append_left _ done

theorem listensTo_iff (s : Step) (name : String) :
    s.listensTo name = true ↔ name ∈ s.trigger.1 := by simp [Step.listensTo]

theorem isReady_iff (listener : Step) (executed : List String) :
    isReady listener executed ↔
      listener.trigger.2 = .any ∨ ∀ p ∈ listener.trigger.1, p ∈ executed := by
  unfold isReady
  rcases listener.trigger with ⟨after, join⟩
  cases join <;> simp

theorem triggered_of_isReady {before : List Visit} {listener : Step} {name : String}
    (listens : listener.listensTo name) (done : name ∈ visitedNames before)
    (ready : isReady listener (visitedNames before)) : Triggered before listener := by
  rw [listensTo_iff] at listens
  rw [isReady_iff] at ready
  cases join : listener.trigger.2 with
  | all =>
      have allDone := ready.resolve_left (by simp [join])
      exact .all join (List.ne_nil_of_mem listens) allDone
  | any => exact .any join name listens done

/-! ## The queue behind a step -/

section Queue
variable {executed suppressed : List String}

theorem subset_enqueue : ∀ {listeners : List Step} {queue : List String} {name : String},
    name ∈ queue → name ∈ enqueue executed suppressed queue listeners := by
  intro listeners
  induction listeners with
  | nil => intro queue name member; exact member
  | cons l rest ih =>
      intro queue name member
      rw [enqueue]
      apply ih
      split
      · exact List.mem_append_left _ member
      · exact member

theorem mem_enqueue : ∀ {listeners : List Step} {queue : List String} {name : String},
    name ∈ enqueue executed suppressed queue listeners →
      name ∈ queue ∨ ∃ l ∈ listeners, l.name = name ∧ isReady l executed := by
  intro listeners
  induction listeners with
  | nil => intro queue name member; exact Or.inl member
  | cons l rest ih =>
      intro queue name member
      rw [enqueue] at member
      rcases ih member with earlier | ⟨found, inRest, same, ready⟩
      · split at earlier
        · next added =>
            rcases List.mem_append.mp earlier with old | new
            · exact Or.inl old
            · have ready : isReady l executed := by simp_all
              exact Or.inr ⟨l, List.mem_cons_self, (List.mem_singleton.mp new).symm, ready⟩
        · exact Or.inl earlier
      · exact Or.inr ⟨found, List.mem_cons_of_mem _ inRest, same, ready⟩

/-- A listener is passed over only for a reason. -/
theorem enqueue_covers : ∀ {listeners : List Step} {queue : List String} {l : Step},
    l ∈ listeners →
      l.name ∈ executed ∨ l.name ∈ enqueue executed suppressed queue listeners ∨
        l.name ∈ suppressed ∨ isReady l executed = false := by
  intro listeners
  induction listeners with
  | nil => intro queue l member; simp at member
  | cons head rest ih =>
      intro queue l member
      rcases List.mem_cons.mp member with rfl | later
      · by_cases ready : isReady l executed
        · by_cases done : l.name ∈ executed
          · exact Or.inl done
          by_cases hidden : l.name ∈ suppressed
          · exact Or.inr (Or.inr (Or.inl hidden))
          refine Or.inr (Or.inl ?_)
          rw [enqueue]
          apply subset_enqueue
          by_cases queued : l.name ∈ queue <;> simp [done, hidden, queued, ready]
        · exact Or.inr (Or.inr (Or.inr (by simpa using ready)))
      · rw [enqueue]
        exact ih later

end Queue

theorem queueAfter_eq (g : Graph) (v : Visit) (executed queue : List String) :
    queueAfter g v.step v.state executed queue =
      enqueue executed v.suppressed (queue ++ v.chosen?.toList) (g.listenersOf v.step.name) := rfl

theorem mem_queueAfter {g : Graph} {v : Visit} {executed queue : List String} {name : String}
    (member : name ∈ queueAfter g v.step v.state executed queue) :
    name ∈ queue ∨ v.chosen? = some name ∨
      ∃ l ∈ g.listenersOf v.step.name, l.name = name ∧ isReady l executed := by
  rw [queueAfter_eq] at member
  rcases mem_enqueue member with earlier | listener
  · rcases List.mem_append.mp earlier with old | new
    · exact Or.inl old
    · exact Or.inr (Or.inl (by simpa using new))
  · exact Or.inr (Or.inr listener)

section After
variable {g : Graph} {v : Visit} {executed queue : List String}

theorem mem_queueAfter_of_mem {name : String} (member : name ∈ queue) :
    name ∈ queueAfter g v.step v.state executed queue := by
  rw [queueAfter_eq]
  exact subset_enqueue (List.mem_append_left _ member)

theorem mem_queueAfter_of_chosen {target : String} (chosen : v.chosen? = some target) :
    target ∈ queueAfter g v.step v.state executed queue := by
  rw [queueAfter_eq]
  exact subset_enqueue (List.mem_append_right _ (by simp [chosen]))

theorem listener_mem_queueAfter {l : Step} (listener : l ∈ g.listenersOf v.step.name) :
    l.name ∈ executed ∨ l.name ∈ queueAfter g v.step v.state executed queue ∨
      v.PassesOver l.name ∨ isReady l executed = false := by
  rw [queueAfter_eq, ← Visit.mem_suppressed_iff]
  exact enqueue_covers listener

end After

/-! ## Visits are triggered -/

section Walks
variable {σ : Type} {runner : Runner σ} {crews : List Crew} {inputs : Inputs} {g : Graph}

theorem eq_of_mem_of_name_eq (distinct : g.stepNames.Nodup) {s t : Step} (left : s ∈ g.steps)
    (right : t ∈ g.steps) (same : s.name = t.name) : s = t :=
  List.inj_on_of_nodup_map distinct left right same

theorem mem_steps_of_step? {name : String} {s : Step} (found : g.step? name = some s) :
    s ∈ g.steps := by simpa using List.mem_of_find?_eq_some found

theorem mem_listenersOf {name : String} {l : Step} :
    l ∈ g.listenersOf name ↔ l ∈ g.steps ∧ l.listensTo name := List.mem_filter

theorem append_singleton_split {α : Type} {xs pre post : List α} {x y : α}
    (split : xs ++ [x] = pre ++ y :: post) :
    (xs = pre ∧ x = y) ∨ ∃ rest, xs = pre ++ y :: rest := by
  rcases List.eq_nil_or_concat post with rfl | ⟨rest, last, rfl⟩
  · obtain ⟨same, tail⟩ := List.append_inj' split rfl
    exact Or.inl ⟨same, by simpa using tail⟩
  · refine Or.inr ⟨rest, ?_⟩
    have whole : xs ++ [x] = (pre ++ y :: rest) ++ [last] := by simpa using split
    exact (List.append_inj' whole rfl).1

/-- What is true of the visits and the queue of a walk at every point. -/
structure Sound (g : Graph) (visits : List Visit) (w : Walk σ) : Prop where
  log : w.executed = visitedNames visits
  once : (visitedNames visits).Nodup
  steps : ∀ v ∈ visits, v.step ∈ g.steps
  triggered : ∀ before v after, visits = before ++ v :: after → Triggered before v.step
  waiting : ∀ s ∈ g.steps, s.name ∈ w.queue → Triggered visits s

theorem sound_start (distinct : g.stepNames.Nodup) (state : State) (world : σ) :
    Sound g [] (Walk.start g state world) where
  log := rfl
  once := List.nodup_nil
  steps := by simp
  triggered := by simp
  waiting := by
    intro s member queued
    obtain ⟨first, isFirst, same⟩ := List.mem_map.mp queued
    obtain ⟨inGraph, starts⟩ := List.mem_filter.mp isFirst
    cases eq_of_mem_of_name_eq distinct inGraph member same
    exact .start starts

theorem sound_round (distinct : g.stepNames.Nodup) (visits : List Visit) (w : Walk σ)
    (visit : Option Visit) (next : Walk σ) (sound : Sound g visits w)
    (round : Round runner crews inputs g w visit next) :
    Sound g (visits ++ visit.toList) next := by
  cases round with
  | leaveOut waiting done =>
      simp only [Option.toList_none, List.append_nil]
      refine ⟨sound.log, sound.once, sound.steps, sound.triggered, ?_⟩
      intro s member queued
      exact sound.waiting s member (by rw [waiting]; exact List.mem_cons_of_mem _ queued)
  | @visit name queue s state produced world waiting fresh found acted =>
      have isStep : s ∈ g.steps := mem_steps_of_step? found
      have isNamed : s.name = name := Graph.step?_name found
      have log : w.executed ++ [s.name] = visitedNames (visits ++ [⟨s, state.mark s.name⟩]) := by
        simp [sound.log]
      have isFresh : s.name ∉ visitedNames visits := by
        rw [isNamed, ← sound.log]
        exact fresh
      have isTriggered : Triggered visits s :=
        sound.waiting s isStep (by rw [isNamed, waiting]; exact List.mem_cons_self)
      refine ⟨log, ?_, ?_, ?_, ?_⟩
      · rw [Option.toList_some, visitedNames_append, visitedNames_singleton]
        exact List.Nodup.append sound.once (List.nodup_singleton _) (by simpa using isFresh)
      · intro v member
        rcases List.mem_append.mp member with old | new
        · exact sound.steps v old
        · rw [List.mem_singleton.mp new]
          exact isStep
      · intro before v after split
        rcases append_singleton_split split with ⟨rfl, rfl⟩ | ⟨rest, old⟩
        · exact isTriggered
        · exact sound.triggered before v rest old
      · intro t member queued
        -- It waited before, is the target just chosen, or listens to the step that was done.
        rcases mem_queueAfter (v := ⟨s, state.mark s.name⟩) queued with
          old | chosen | ⟨l, listener, same, ready⟩
        · exact (sound.waiting t member (by rw [waiting]; exact List.mem_cons_of_mem _ old)).mono _
        · exact .chosen _ (List.mem_append_right _ List.mem_cons_self) chosen
        · obtain ⟨inGraph, listens⟩ := mem_listenersOf.mp listener
          cases eq_of_mem_of_name_eq distinct inGraph member same
          refine triggered_of_isReady listens ?_ (log ▸ ready)
          simp

/-! ## No trigger is lost -/

def Walk.Covers (w : Walk σ) (name : String) : Prop := name ∈ w.executed ∨ name ∈ w.queue

theorem Round.covers {w next : Walk σ} {visit : Option Visit}
    (round : Round runner crews inputs g w visit next) {name : String} (covered : w.Covers name) :
    next.Covers name := by
  cases round with
  | leaveOut waiting done =>
      rcases covered with visited | queued
      · exact Or.inl visited
      · rw [waiting] at queued
        rcases List.mem_cons.mp queued with rfl | later
        · exact Or.inl done
        · exact Or.inr later
  | @visit _ _ s state _ _ waiting fresh found acted =>
      have isNamed := Graph.step?_name found
      rcases covered with visited | queued
      · exact Or.inl (List.mem_append_left _ visited)
      · rw [waiting] at queued
        rcases List.mem_cons.mp queued with rfl | later
        · exact Or.inl (List.mem_append_right _ (by simp [isNamed]))
        · refine Or.inr ?_
          exact mem_queueAfter_of_mem (v := ⟨s, state.mark s.name⟩) later

/-- At every point of a walk, whatever has been triggered is covered. A listener is looked at when one of
its predecessors has been visited, so there is a condition for each visit. -/
structure Complete (g : Graph) (visits : List Visit) (w : Walk σ) : Prop where
  starts : ∀ s ∈ g.steps, s.isStart → w.Covers s.name
  choices : ∀ v ∈ visits, ∀ target, v.chosen? = some target → w.Covers target
  listeners : ∀ before v after, visits = before ++ v :: after → ∀ l ∈ g.listenersOf v.step.name,
    w.Covers l.name ∨ v.PassesOver l.name ∨ isReady l (visitedNames (before ++ [v])) = false

theorem complete_start (g : Graph) (state : State) (world : σ) :
    Complete g [] (Walk.start g state world) where
  starts := by
    intro s member first
    exact Or.inr (List.mem_map.mpr ⟨s, List.mem_filter.mpr ⟨member, first⟩, rfl⟩)
  choices := by simp
  listeners := by simp

theorem complete_round (visits : List Visit) (w : Walk σ) (visit : Option Visit) (next : Walk σ)
    (log : w.executed = visitedNames visits) (complete : Complete g visits w)
    (round : Round runner crews inputs g w visit next) :
    Complete g (visits ++ visit.toList) next := by
  have kept : ∀ {name : String}, w.Covers name → next.Covers name := fun h => round.covers h
  refine ⟨fun s member first => kept (complete.starts s member first), ?_, ?_⟩
  · intro v member target chosen
    rcases List.mem_append.mp member with old | new
    · exact kept (complete.choices v old target chosen)
    · cases round with
      | leaveOut waiting done => simp at new
      | visit waiting fresh found acted =>
          cases List.mem_singleton.mp new
          exact Or.inr (mem_queueAfter_of_chosen chosen)
  · intro before v after split l listener
    cases round with
    | leaveOut waiting done =>
        rcases complete.listeners before v after (by simpa using split) l listener with h | h
        · exact Or.inl (kept h)
        · exact Or.inr h
    | visit waiting fresh found acted =>
        rcases append_singleton_split split with ⟨rfl, rfl⟩ | ⟨rest, old⟩
        · rw [visitedNames_append, visitedNames_singleton, ← log]
          rcases listener_mem_queueAfter listener with h | h | h
          · exact Or.inl (Or.inl h)
          · exact Or.inl (Or.inr h)
          · exact Or.inr h
        · rcases complete.listeners before v rest old l listener with h | h
          · exact Or.inl (kept h)
          · exact Or.inr h

theorem exists_last_of_exists {α : Type} {p : α → Prop} {xs : List α} (some : ∃ x ∈ xs, p x) :
    ∃ before x after, xs = before ++ x :: after ∧ p x ∧ ∀ y ∈ after, ¬ p y := by
  induction xs with
  | nil => simp at some
  | cons x xs ih =>
      by_cases later : ∃ y ∈ xs, p y
      · obtain ⟨before, y, after, rfl, holds, rest⟩ := ih later
        exact ⟨x :: before, y, after, rfl, holds, rest⟩
      · obtain ⟨y, member, holds⟩ := some
        rcases List.mem_cons.mp member with rfl | inTail
        · exact ⟨[], y, xs, rfl, holds, fun z inTail other => later ⟨z, inTail, other⟩⟩
        · exact absurd ⟨y, inTail, holds⟩ later

/-- What a walk that has ended well says about a step that was not visited. -/
theorem untriggered_of_complete {visits : List Visit} {w : Walk σ} (log : w.executed = visitedNames visits)
    (complete : Complete g visits w) (nothing : w.queue = []) {l : Step} (member : l ∈ g.steps)
    (unvisited : l.name ∉ visitedNames visits) :
    l.isStart = false ∧ (∀ v ∈ visits, v.chosen? ≠ some l.name) ∧
      (l.trigger.2 = .any → ∀ v ∈ visits, v.step.name ∈ l.trigger.1 → v.PassesOver l.name) ∧
      (l.trigger.2 = .all → l.trigger.1 ≠ [] →
        (∃ p ∈ l.trigger.1, p ∉ visitedNames visits) ∨
          ∃ before v after, visits = before ++ v :: after ∧ v.step.name ∈ l.trigger.1 ∧
            (∀ u ∈ after, u.step.name ∉ l.trigger.1) ∧ v.PassesOver l.name) := by
  have uncovered : ¬ w.Covers l.name := by
    rintro (visited | queued)
    · exact unvisited (log ▸ visited)
    · simp [nothing] at queued
  refine ⟨?_, ?_, ?_, ?_⟩
  · by_contra first
    exact uncovered (complete.starts l member (by simpa using first))
  · intro v visited chosen
    exact uncovered (complete.choices v visited l.name chosen)
  · intro join v visited listens
    obtain ⟨before, after, split⟩ := List.append_of_mem visited
    have listener := mem_listenersOf.mpr ⟨member, (listensTo_iff l v.step.name).mpr listens⟩
    rcases complete.listeners before v after split l listener with h | h | waits
    · exact absurd h uncovered
    · exact h
    · rw [(isReady_iff l _).mpr (Or.inl join)] at waits
      contradiction
  · intro _ some
    by_cases allDone : ∀ p ∈ l.trigger.1, p ∈ visitedNames visits
    · obtain ⟨p, listensToP⟩ := List.exists_mem_of_ne_nil _ some
      obtain ⟨u, visited, rfl⟩ := mem_visitedNames.mp (allDone p listensToP)
      obtain ⟨before, v, after, split, listens, latest⟩ :=
        exists_last_of_exists (p := fun t : Visit => t.step.name ∈ l.trigger.1)
          ⟨u, visited, listensToP⟩
      refine Or.inr ⟨before, v, after, split, listens, latest, ?_⟩
      -- The predecessors have all been visited by now, since no later visit is of one.
      have ready : isReady l (visitedNames (before ++ [v])) := by
        refine (isReady_iff l _).mpr (Or.inr fun q listensToQ => ?_)
        obtain ⟨t, visitedQ, rfl⟩ := mem_visitedNames.mp (allDone q listensToQ)
        have early : t ∉ after := fun late => latest t late listensToQ
        refine mem_visitedNames.mpr ⟨t, ?_, rfl⟩
        simp_all
      have listener := mem_listenersOf.mpr ⟨member, (listensTo_iff l v.step.name).mpr listens⟩
      rcases complete.listeners before v after split l listener with h | h | waits
      · exact absurd h uncovered
      · exact h
      · rw [ready] at waits
        contradiction
    · push Not at allDone
      exact Or.inl allDone

end Walks

/-! ## Whole walks -/

/-- A draft is checked; then it is published, or revised and checked again. -/
def reviewLoop : Graph where
  name := "review"
  steps :=
    [⟨"begin", .start, .noop, none⟩,
      ⟨"check", .router ["begin", "revise"] .any "approved" ⟨some "publish", some "revise", none⟩,
        .noop, none⟩,
      ⟨"revise", .listen ["check"] .all, .noop, none⟩,
      ⟨"publish", .listen ["begin", "check"] .all, .noop, none⟩]

def unapproved : State where
  id := "draft"
  workflowId := none
  fields := [("approved", .bool false)]
  types := []
  completed := []
  results := []

def noCrew : Runner Unit := fun _ _ world => (.error (.other "no crew"), world)

section Runs
variable {σ : Type} (runner : Runner σ) (crews : List Crew) (inputs : Inputs) (state : State)
  (world : σ)

theorem run_reviewLoop :
    (run noCrew [] reviewLoop [] unapproved ()).1.executed = ["begin", "check", "revise"] ∧
      (run noCrew [] reviewLoop [] unapproved ()).2 = none := by
  rw [run, run_of_round _ _ _ _ (.visit rfl (by simp [Walk.start]) rfl rfl)]
  rw [run_of_round _ _ _ _ (.visit rfl (by decide) rfl rfl)]
  rw [run_of_round _ _ _ _ (.visit rfl (by decide) rfl rfl)]
  rw [run_of_halt _ _ _ _ (.done rfl)]
  exact ⟨rfl, rfl⟩

/-- A walk ends. It visits steps of its graph, each at most once, and each only after something has
triggered it: the step is a start, a router visited before has chosen it, or its predecessors have been
visited before, all of them or any, as the step joins them. -/
theorem walk_visits_triggered_steps_once (g : Graph) (distinct : g.stepNames.Nodup) :
    ∃ visits,
      Trail runner crews inputs g (.start g state world) visits
        (run runner crews g inputs state world) ∧
      (run runner crews g inputs state world).1.executed = visitedNames visits ∧
      (visitedNames visits).Nodup ∧ (∀ v ∈ visits, v.step ∈ g.steps) ∧
      ∀ before v after, visits = before ++ v :: after → Triggered before v.step := by
  obtain ⟨visits, trail⟩ := trail_of_run runner crews inputs g (.start g state world)
  obtain ⟨last, sound, halt⟩ := trail.preserves (Sound g)
    (fun before w visit next => sound_round distinct before w visit next) []
    (sound_start distinct state world)
  refine ⟨visits, trail, ?_, sound.once, sound.steps, sound.triggered⟩
  exact halt.executed_eq.trans sound.log

theorem review_loop_visits_check_once :
    reviewLoop.stepNames.Nodup ∧
      ∃ visits, visitedNames visits = ["begin", "check", "revise"] ∧
        ∀ before v after, visits = before ++ v :: after → Triggered before v.step := by
  have distinct : reviewLoop.stepNames.Nodup := by decide
  obtain ⟨visits, _, log, _, _, triggered⟩ :=
    walk_visits_triggered_steps_once noCrew [] [] unapproved () reviewLoop distinct
  exact ⟨distinct, visits, log.symm.trans run_reviewLoop.1, triggered⟩

/-- In a walk that ends well, a step that was not visited has not been triggered: it is no start, and no
router has chosen it. If any of its predecessors would do, those that were visited are routers that
passed it over. If all of them are needed, one was not visited, or the one that was visited last is a
router that passed it over. -/
theorem walk_loses_no_trigger (g : Graph) (distinct : g.stepNames.Nodup)
    (success : (run runner crews g inputs state world).2 = none) :
    ∃ visits,
      Trail runner crews inputs g (.start g state world) visits
        (run runner crews g inputs state world) ∧
      (run runner crews g inputs state world).1.executed = visitedNames visits ∧
      ∀ l ∈ g.steps, l.name ∉ visitedNames visits →
        l.isStart = false ∧ (∀ v ∈ visits, v.chosen? ≠ some l.name) ∧
        (l.trigger.2 = .any → ∀ v ∈ visits, v.step.name ∈ l.trigger.1 → v.PassesOver l.name) ∧
        (l.trigger.2 = .all → l.trigger.1 ≠ [] →
          (∃ p ∈ l.trigger.1, p ∉ visitedNames visits) ∨
            ∃ before v after, visits = before ++ v :: after ∧ v.step.name ∈ l.trigger.1 ∧
              (∀ u ∈ after, u.step.name ∉ l.trigger.1) ∧ v.PassesOver l.name) := by
  obtain ⟨visits, trail⟩ := trail_of_run runner crews inputs g (.start g state world)
  obtain ⟨last, ⟨sound, complete⟩, halt⟩ := trail.preserves
    (fun visits w => Sound g visits w ∧ Complete g visits w)
    (fun before w visit next kept round =>
      ⟨sound_round distinct before w visit next kept.1 round,
        complete_round before w visit next kept.1.log kept.2 round⟩)
    [] ⟨sound_start distinct state world, complete_start g state world⟩
  refine ⟨visits, trail, halt.executed_eq.trans sound.log, ?_⟩
  intro l member unvisited
  exact untriggered_of_complete sound.log complete (halt.queue_eq_nil success) member unvisited

theorem review_loop_passes_publish_over :
    reviewLoop.stepNames.Nodup ∧ (run noCrew [] reviewLoop [] unapproved ()).2 = none ∧
      ∃ visits, visitedNames visits = ["begin", "check", "revise"] ∧
        ∃ v ∈ visits, v.PassesOver "publish" := by
  have distinct : reviewLoop.stepNames.Nodup := by decide
  obtain ⟨executed, success⟩ := run_reviewLoop
  obtain ⟨visits, _, log, lost⟩ :=
    walk_loses_no_trigger noCrew [] [] unapproved () reviewLoop distinct success
  have names := log.symm.trans executed
  have inGraph : ⟨"publish", .listen ["begin", "check"] .all, .noop, none⟩ ∈ reviewLoop.steps := by
    simp [reviewLoop]
  obtain ⟨_, _, _, joined⟩ := lost _ inGraph (by simp [names])
  refine ⟨distinct, success, visits, names, ?_⟩
  rcases joined rfl (by simp [Step.trigger]) with ⟨p, listens, missing⟩ | ⟨_, v, _, split, _, _, passed⟩
  · rw [names] at missing
    simp_all [Step.trigger]
  · exact ⟨v, by simp [split], passed⟩

end Runs

end CrewFlow.Flow
