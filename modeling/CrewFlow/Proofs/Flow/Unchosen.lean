import Mathlib
import CrewFlow.Proofs.Flow.Trigger
/-!
# Targets that were not chosen

A router suppresses the targets that it does not choose while its own listeners are looked at, and no longer.
So a step that joins all is left out by a router that passed it over only when that router is the last of its
predecessors to be visited. Each visit is behind one that released its step: a step enters the queue as a
start, as a target that was chosen, or as a listener that the visit before did not suppress.
-/
set_option autoImplicit false

namespace CrewFlow.Flow

open Text (Inputs)

/-- A step that joins all has been passed over by a router that it listens to, and no router has chosen it. -/
structure Unchosen (visits : List Visit) (l : Step) : Prop where
  join : l.trigger.2 = .all
  passed : ∃ r ∈ visits, r.step.name ∈ l.trigger.1 ∧ r.PassesOver l.name
  unchosen : ∀ v ∈ visits, v.chosen? ≠ some l.name

/-- The last visit of a step that another one listens to. -/
def lastHeard? (visits : List Visit) (l : Step) : Option Visit :=
  visits.reverse.find? fun v => l.listensTo v.step.name

theorem lastHeard?_eq_some_iff {visits : List Visit} {l : Step} {v : Visit} :
    lastHeard? visits l = some v ↔
      v.step.name ∈ l.trigger.1 ∧ ∃ before after, visits = before ++ v :: after ∧
        ∀ u ∈ after, u.step.name ∉ l.trigger.1 := by
  rw [lastHeard?, List.find?_eq_some_iff_append, listensTo_iff]
  refine and_congr_right fun _ => ⟨?_, ?_⟩
  · rintro ⟨later, earlier, split, silent⟩
    refine ⟨earlier.reverse, later.reverse, ?_, ?_⟩
    · rw [← List.reverse_reverse visits, split]
      simp
    · intro u member listens
      have spoken := silent u (List.mem_reverse.mp member)
      rw [(listensTo_iff l u.step.name).mpr listens] at spoken
      contradiction
  · rintro ⟨before, after, rfl, silent⟩
    refine ⟨after.reverse, before.reverse, by simp, ?_⟩
    intro u member
    have unheard := mt (listensTo_iff l u.step.name).mp (silent u (List.mem_reverse.mp member))
    simpa using unheard

/-! ## Releases -/

/-- What put a step into the queue by the time some visits had been made. -/
inductive Released (before : List Visit) (s : Step) : Prop where
  | start (first : s.isStart)
  | chosen (router : Visit) (earlier : router ∈ before) (choice : router.chosen? = some s.name)
  | joined {earlier later : List Visit} {v : Visit} (split : before = earlier ++ v :: later)
      (listens : v.step.name ∈ s.trigger.1) (free : ¬ v.PassesOver s.name)
      (ready : isReady s (visitedNames (earlier ++ [v])))

theorem Released.mono {before : List Visit} {s : Step} (released : Released before s)
    (more : List Visit) : Released (before ++ more) s := by
  cases released with
  | start first => exact .start first
  | chosen router earlier choice => exact .chosen router (List.mem_append_left _ earlier) choice
  | @joined earlier later v split listens free ready =>
      have further : before ++ more = earlier ++ v :: (later ++ more) := by
        rw [split, List.append_assoc, List.cons_append]
      exact .joined further listens free ready

theorem not_mem_suppressed_of_enqueue {executed suppressed : List String} {name : String} :
    ∀ {listeners : List Step} {queue : List String},
      name ∈ enqueue executed suppressed queue listeners → name ∈ queue ∨ name ∉ suppressed := by
  intro listeners
  induction listeners with
  | nil =>
      intro queue member
      exact Or.inl member
  | cons l rest ih =>
      intro queue member
      rw [enqueue] at member
      rcases ih member with earlier | free
      · split at earlier
        · next added =>
            rcases List.mem_append.mp earlier with old | new
            · exact Or.inl old
            · rw [List.mem_singleton.mp new]
              exact Or.inr (by simp_all)
        · exact Or.inl earlier
      · exact Or.inr free

theorem free_of_mem_queueAfter {g : Graph} {v : Visit} {executed queue : List String} {name : String}
    (member : name ∈ queueAfter g v.step v.state executed queue) :
    name ∈ queue ∨ v.chosen? = some name ∨ ¬ v.PassesOver name := by
  rw [queueAfter_eq] at member
  rcases not_mem_suppressed_of_enqueue member with earlier | free
  · rcases List.mem_append.mp earlier with old | new
    · exact Or.inl old
    · exact Or.inr (Or.inl (by simpa using new))
  · exact Or.inr (Or.inr fun passed => free ((v.mem_suppressed_iff name).mpr passed))

section Walks
variable {σ : Type} {runner : Runner σ} {crews : List Crew} {inputs : Inputs} {g : Graph}

/-- At every point of a walk, each visit and each name in the queue has been released. -/
structure Freed (g : Graph) (visits : List Visit) (w : Walk σ) : Prop where
  visited : ∀ before v after, visits = before ++ v :: after → Released before v.step
  waiting : ∀ s ∈ g.steps, s.name ∈ w.queue → Released visits s

theorem freed_start (distinct : g.stepNames.Nodup) (state : State) (world : σ) :
    Freed g [] (Walk.start g state world) where
  visited := by simp
  waiting := by
    intro s member queued
    obtain ⟨first, isFirst, same⟩ := List.mem_map.mp queued
    obtain ⟨inGraph, starts⟩ := List.mem_filter.mp isFirst
    cases eq_of_mem_of_name_eq distinct inGraph member same
    exact .start starts

theorem Freed.released_behind (distinct : g.stepNames.Nodup) {visits : List Visit} {w : Walk σ}
    (freed : Freed g visits w) {v : Visit} {queue : List String}
    (waiting : w.queue = v.step.name :: queue) {t : Step} (member : t ∈ g.steps)
    (queued : t.name ∈ queueAfter g v.step v.state (visitedNames (visits ++ [v])) queue) :
    Released (visits ++ [v]) t := by
  have kept : t.name ∈ queue → Released (visits ++ [v]) t := fun old =>
    (freed.waiting t member (waiting ▸ List.mem_cons_of_mem _ old)).mono _
  have picked : v.chosen? = some t.name → Released (visits ++ [v]) t := fun choice =>
    .chosen v (List.mem_append_right _ List.mem_cons_self) choice
  rcases mem_queueAfter queued with old | choice | ⟨l, listener, same, ready⟩
  · exact kept old
  · exact picked choice
  · obtain ⟨inGraph, listens⟩ := mem_listenersOf.mp listener
    cases eq_of_mem_of_name_eq distinct inGraph member same
    rcases free_of_mem_queueAfter queued with old | choice | free
    · exact kept old
    · exact picked choice
    · exact .joined rfl ((listensTo_iff t v.step.name).mp listens) free ready

theorem freed_round (distinct : g.stepNames.Nodup) (visits : List Visit) (w : Walk σ)
    (visit : Option Visit) (next : Walk σ) (log : w.executed = visitedNames visits)
    (freed : Freed g visits w) (round : Round runner crews inputs g w visit next) :
    Freed g (visits ++ visit.toList) next := by
  cases round with
  | leaveOut waiting done =>
      simp only [Option.toList_none, List.append_nil]
      refine ⟨freed.visited, fun s member queued => ?_⟩
      exact freed.waiting s member (by rw [waiting]; exact List.mem_cons_of_mem _ queued)
  | @visit name queue s state produced world waiting fresh found acted =>
      have isStep : s ∈ g.steps := mem_steps_of_step? found
      obtain rfl : s.name = name := Graph.step?_name found
      refine ⟨?_, ?_⟩
      · intro before v after split
        rcases append_singleton_split split with ⟨rfl, rfl⟩ | ⟨rest, old⟩
        · exact freed.waiting s isStep (by rw [waiting]; exact List.mem_cons_self)
        · exact freed.visited before v rest old
      · intro t member queued
        refine freed.released_behind (v := ⟨s, state.mark s.name⟩) distinct waiting member ?_
        rw [visitedNames_append, visitedNames_singleton, ← log]
        exact queued

/-- A step that joins all, was visited and was not chosen had been released by the last of its predecessors,
when all of them had been visited. -/
theorem lastHeard?_of_visited {visits : List Visit} {w : Walk σ} (sound : Sound g visits w)
    (freed : Freed g visits w) {v : Visit} (visited : v ∈ visits) (join : v.step.trigger.2 = .all)
    (later : v.step.isStart = false) (unchosen : ∀ u ∈ visits, u.chosen? ≠ some v.step.name) :
    (∀ p ∈ v.step.trigger.1, p ∈ visitedNames visits) ∧
      ∃ last, lastHeard? visits v.step = some last ∧ ¬ last.PassesOver v.step.name := by
  obtain ⟨before, after, split⟩ := List.append_of_mem visited
  cases freed.visited before v after split with
  | start first => simp [first] at later
  | chosen router earlier choice =>
      refine absurd choice (unchosen router ?_)
      rw [split]
      exact List.mem_append_left _ earlier
  | @joined earlier between last behind listens free ready =>
      have all := ((isReady_iff v.step _).mp ready).resolve_left (by simp [join])
      have whole : visits = (earlier ++ [last]) ++ (between ++ v :: after) := by simp [split, behind]
      refine ⟨fun p listed => ?_, last, ?_, free⟩
      · rw [whole, visitedNames_append]
        exact List.mem_append_left _ (all p listed)
      · refine lastHeard?_eq_some_iff.mpr ⟨listens, earlier, between ++ v :: after, by simp [whole], ?_⟩
        -- All predecessors stand up to the one that released the step, and no step is visited twice.
        intro u beyond listed
        have once := sound.once
        rw [whole, visitedNames_append] at once
        exact List.disjoint_of_nodup_append once (all _ listed) (mem_visitedNames.mpr ⟨u, beyond, rfl⟩)

theorem unvisited_iff_of_unchosen (distinct : g.stepNames.Nodup) {visits : List Visit} {w : Walk σ}
    (sound : Sound g visits w) (complete : Complete g visits w) (freed : Freed g visits w)
    (nothing : w.queue = []) {l : Step} (member : l ∈ g.steps) (passed : Unchosen visits l) :
    l.name ∉ visitedNames visits ↔
      (∃ p ∈ l.trigger.1, p ∉ visitedNames visits) ∨
        ∃ last, lastHeard? visits l = some last ∧ last.PassesOver l.name := by
  obtain ⟨r, _, listens, _⟩ := passed.passed
  have heard : l.trigger.1 ≠ [] := List.ne_nil_of_mem listens
  constructor
  · intro unvisited
    obtain ⟨_, _, _, all⟩ := untriggered_of_complete sound.log complete nothing member unvisited
    rcases all passed.join heard with missing | ⟨before, v, after, split, listed, silent, skipped⟩
    · exact Or.inl missing
    · exact Or.inr ⟨v, lastHeard?_eq_some_iff.mpr ⟨listed, before, after, split, silent⟩, skipped⟩
  · intro held visited
    obtain ⟨v, isVisit, named⟩ := mem_visitedNames.mp visited
    obtain rfl : v.step = l := eq_of_mem_of_name_eq distinct (sound.steps v isVisit) member named
    have later : v.step.isStart = false := by
      cases kind : v.step.kind with
      | start => simp [Step.trigger, kind] at heard
      | listen after join => simp [Step.isStart, kind]
      | router after join condition routes => simp [Step.isStart, kind]
    obtain ⟨all, last, found, free⟩ :=
      lastHeard?_of_visited sound freed isVisit passed.join later passed.unchosen
    rcases held with ⟨p, listed, missing⟩ | ⟨other, same, skipped⟩
    · exact missing (all p listed)
    · rw [found] at same
      cases same
      exact free skipped

end Walks

/-! ## Whole walks -/

section Runs
variable {σ : Type} (runner : Runner σ) (crews : List Crew) (inputs : Inputs) (state : State)
  (world : σ)

/-- A walk that ends well leaves an unchosen target out exactly when one of its predecessors was not visited,
or the one that was visited last is a router that passed it over. When a predecessor comes behind the routers,
the target is visited though no router chose it. -/
theorem unchosen_target_left_out_iff (g : Graph) (distinct : g.stepNames.Nodup)
    (success : (run runner crews g inputs state world).2 = none) :
    let ending := run runner crews g inputs state world
    (∃ visits, Trail runner crews inputs g (.start g state world) visits ending) ∧
      ∀ visits, Trail runner crews inputs g (.start g state world) visits ending →
        ending.1.executed = visitedNames visits ∧
        ∀ l ∈ g.steps, Unchosen visits l →
          (l.name ∉ ending.1.executed ↔
            (∃ p ∈ l.trigger.1, p ∉ ending.1.executed) ∨
              ∃ last, lastHeard? visits l = some last ∧ last.PassesOver l.name) := by
  intro ending
  refine ⟨trail_of_run runner crews inputs g (.start g state world), fun visits trail => ?_⟩
  obtain ⟨last, ⟨sound, complete, freed⟩, halt⟩ := trail.preserves
    (fun visits w => Sound g visits w ∧ Complete g visits w ∧ Freed g visits w)
    (fun before w visit next kept round =>
      ⟨sound_round distinct before w visit next kept.1 round,
        complete_round before w visit next kept.1.log kept.2.1 round,
        freed_round distinct before w visit next kept.1.log kept.2.2 round⟩)
    [] ⟨sound_start distinct state world, complete_start g state world, freed_start distinct state world⟩
  rw [List.nil_append] at sound complete freed
  have log : ending.1.executed = visitedNames visits := halt.executed_eq.trans sound.log
  refine ⟨log, fun l member passed => ?_⟩
  rw [log]
  exact unvisited_iff_of_unchosen distinct sound complete freed (halt.queue_eq_nil success) member passed

end Runs

def idleVisits (state : State) : List Step → List Visit
  | [] => []
  | s :: rest => ⟨s, state.mark s.name⟩ :: idleVisits (state.mark s.name) rest

theorem trail_reviewLoop :
    Trail noCrew [] [] reviewLoop (.start reviewLoop unapproved ())
      (idleVisits unapproved (reviewLoop.steps.take 3)) (run noCrew [] reviewLoop [] unapproved ()) := by
  have trail : ∃ visits ending, visits = idleVisits unapproved (reviewLoop.steps.take 3) ∧
      Trail noCrew [] [] reviewLoop (.start reviewLoop unapproved ()) visits ending :=
    ⟨_, _, rfl, .goesOn (.visit rfl (by simp [Walk.start]) rfl rfl) <|
      .goesOn (.visit rfl (by decide) rfl rfl) <|
        .goesOn (.visit rfl (by decide) rfl rfl) (.ends (.done rfl))⟩
  obtain ⟨_, _, rfl, trail⟩ := trail
  rw [run, trail.run_eq]
  exact trail

theorem review_loop_leaves_publish_out :
    reviewLoop.stepNames.Nodup ∧ (run noCrew [] reviewLoop [] unapproved ()).2 = none ∧
      ∃ visits, Trail noCrew [] [] reviewLoop (.start reviewLoop unapproved ()) visits
          (run noCrew [] reviewLoop [] unapproved ()) ∧
        ∃ l ∈ reviewLoop.steps, l.name = "publish" ∧ Unchosen visits l ∧
          l.name ∉ (run noCrew [] reviewLoop [] unapproved ()).1.executed := by
  have distinct : reviewLoop.stepNames.Nodup := by decide
  obtain ⟨_, each⟩ :=
    unchosen_target_left_out_iff noCrew [] [] unapproved () reviewLoop distinct run_reviewLoop.2
  have passed : Unchosen (idleVisits unapproved (reviewLoop.steps.take 3))
      ⟨"publish", .listen ["begin", "check"] .all, .noop, none⟩ := by
    refine ⟨rfl, ⟨_, List.mem_cons_of_mem _ List.mem_cons_self, by decide, ?_⟩, ?_⟩
    · exact ⟨_, _, rfl, by decide, by decide⟩
    · simp [reviewLoop, idleVisits]
      decide
  refine ⟨distinct, run_reviewLoop.2, _, trail_reviewLoop, _, ?_, rfl, passed, ?_⟩
  · simp [reviewLoop]
  · refine ((each _ trail_reviewLoop).2 _ (by simp [reviewLoop]) passed).mpr ?_
    exact Or.inr ⟨_, rfl, _, _, rfl, by decide, by decide⟩

/-- A draft is checked and audited. If it is approved it is published, and if not it is revised when both are
done. -/
def auditedReview : Graph where
  name := "review"
  steps :=
    [⟨"begin", .start, .noop, none⟩,
      ⟨"check", .router ["begin"] .all "approved" ⟨some "publish", some "revise", none⟩, .noop, none⟩,
      ⟨"audit", .listen ["begin"] .all, .noop, none⟩,
      ⟨"publish", .listen ["check"] .all, .noop, none⟩,
      ⟨"revise", .listen ["check", "audit"] .all, .noop, none⟩]

def approved : State := { unapproved with fields := [("approved", .bool true)] }

theorem trail_auditedReview :
    Trail noCrew [] [] auditedReview (.start auditedReview approved ())
        (idleVisits approved auditedReview.steps) (run noCrew [] auditedReview [] approved ()) ∧
      (run noCrew [] auditedReview [] approved ()).2 = none ∧
      (run noCrew [] auditedReview [] approved ()).1.executed = auditedReview.stepNames := by
  have trail : ∃ visits ending, visits = idleVisits approved auditedReview.steps ∧
      Trail noCrew [] [] auditedReview (.start auditedReview approved ()) visits ending ∧
      ending.2 = none ∧ ending.1.executed = auditedReview.stepNames :=
    ⟨_, _, rfl, .goesOn (.visit rfl (by simp [Walk.start]) rfl rfl) <|
      .goesOn (.visit rfl (by decide) rfl rfl) <|
        .goesOn (.visit rfl (by decide) rfl rfl) <|
          .goesOn (.visit rfl (by decide) rfl rfl) <|
            .goesOn (.visit rfl (by decide) rfl rfl) (.ends (.done rfl)), rfl, rfl⟩
  obtain ⟨_, _, rfl, trail, success, names⟩ := trail
  rw [run, trail.run_eq]
  exact ⟨trail, success, names⟩

/-- An approved draft is revised all the same: no router chose the revision, the check passed it over, and it
is visited because the audit comes last. -/
theorem unchosen_revision_visited :
    auditedReview.stepNames.Nodup ∧ (run noCrew [] auditedReview [] approved ()).2 = none ∧
      ∃ visits, Trail noCrew [] [] auditedReview (.start auditedReview approved ()) visits
          (run noCrew [] auditedReview [] approved ()) ∧
        ∃ l ∈ auditedReview.steps, l.name = "revise" ∧ Unchosen visits l ∧
          l.name ∈ (run noCrew [] auditedReview [] approved ()).1.executed := by
  obtain ⟨trail, success, names⟩ := trail_auditedReview
  refine ⟨by decide, success, _, trail, ⟨"revise", .listen ["check", "audit"] .all, .noop, none⟩,
    by simp [auditedReview], rfl, ⟨rfl, ?_, ?_⟩, ?_⟩
  · refine ⟨_, List.mem_cons_of_mem _ List.mem_cons_self, by decide, ?_⟩
    exact ⟨_, _, rfl, by decide, by decide⟩
  · simp [auditedReview, idleVisits]
    decide
  · rw [names]
    decide

end CrewFlow.Flow
