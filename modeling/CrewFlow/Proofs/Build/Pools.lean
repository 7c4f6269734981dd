import Mathlib
import CrewFlow.Build.Assembly
import CrewFlow.Proofs.Crew.Arrangement
import CrewFlow.Spec.Validate
/-!
# Pools and managers

A crew takes from what was built the agents and tasks that its declaration lists, and no others. A hierarchical
crew whose manager is among these agents is led by it. One listing of the manager then leaves the pool, so the
manager stays in it when it is listed again.
-/
set_option autoImplicit false

namespace CrewFlow.Build

open Spec (CrewProcess CrewSpec)

/-! ## Listed names -/

section Picks
variable {α : Type} {nameOf : α → String} {built : List α}

/-- What names pick out of everything that was built: for each name that something bears the last that bears it,
in the order of the names and as often as they are listed. -/
structure Picks (nameOf : α → String) (built : List α) (names : List String) (picked : List α) : Prop where
  names : picked.map nameOf = names.filter fun name => (built.map nameOf).contains name
  last : ∀ x ∈ picked, ∃ before after, built = before ++ x :: after ∧ nameOf x ∉ after.map nameOf

def lastNamed? (nameOf : α → String) (built : List α) (name : String) : Option α :=
  built.reverse.find? fun x => nameOf x == name

theorem lastNamed?_cases (nameOf : α → String) (built : List α) (name : String) :
    (∃ x before after, lastNamed? nameOf built name = some x ∧ nameOf x = name ∧
        built = before ++ x :: after ∧ name ∉ after.map nameOf) ∨
      lastNamed? nameOf built name = none ∧ name ∉ built.map nameOf := by
  cases found : lastNamed? nameOf built name with
  | some x =>
      obtain ⟨named, after, before, split, others⟩ := List.find?_eq_some_iff_append.mp found
      refine .inl ⟨x, before.reverse, after.reverse, rfl, by simpa using named, ?_, ?_⟩
      · rw [← List.reverse_reverse built, split]
        simp
      · intro again
        obtain ⟨y, member, same⟩ := List.mem_map.mp again
        have other := others y (List.mem_reverse.mp member)
        simp [same] at other
  | none =>
      refine .inr ⟨rfl, fun member => ?_⟩
      obtain ⟨x, present, same⟩ := List.mem_map.mp member
      have other := List.find?_eq_none.mp found x (List.mem_reverse.mpr present)
      simp [same] at other

theorem picks_lastNamed? (nameOf : α → String) (built : List α) (names : List String) :
    Picks nameOf built names (names.filterMap (lastNamed? nameOf built)) := by
  induction names with
  | nil => exact ⟨rfl, nofun⟩
  | cons name rest ih =>
      rcases lastNamed?_cases nameOf built name with ⟨x, before, after, found, named, split, later⟩ | ⟨absent, unknown⟩
      · have known : name ∈ built.map nameOf := by simp [split, named]
        rw [List.filterMap_cons_some found]
        constructor
        · rw [List.map_cons, ih.names, List.filter_cons_of_pos (by simpa using known), named]
        · intro y member
          rcases List.mem_cons.mp member with rfl | other
          · exact ⟨before, after, split, named.symm ▸ later⟩
          · exact ih.last y other
      · rw [List.filterMap_cons_none absent]
        constructor
        · rw [ih.names, List.filter_cons_of_neg (by simpa using unknown)]
        · exact ih.last

theorem filterMap_lastNamed?_known (nameOf : α → String) (built : List α) (names : List String) :
    (names.filter fun name => (built.map nameOf).contains name).filterMap (lastNamed? nameOf built) =
      names.filterMap (lastNamed? nameOf built) := by
  induction names with
  | nil => rfl
  | cons name rest ih =>
      rcases lastNamed?_cases nameOf built name with ⟨x, before, after, found, named, split, -⟩ | ⟨absent, unknown⟩
      · have known : name ∈ built.map nameOf := by simp [split, named]
        rw [List.filter_cons_of_pos (by simpa using known), List.filterMap_cons_some found,
          List.filterMap_cons_some found, ih]
      · rw [List.filter_cons_of_neg (by simpa using unknown), List.filterMap_cons_none absent, ih]

theorem Picks.mem_iff {names : List String} {picked : List α} (picks : Picks nameOf built names picked)
    {name : String} : name ∈ picked.map nameOf ↔ name ∈ names ∧ name ∈ built.map nameOf := by
  rw [picks.names, List.mem_filter, List.contains_iff_mem]

theorem Picks.count_eq {names : List String} {picked : List α} (picks : Picks nameOf built names picked)
    {name : String} (known : name ∈ built.map nameOf) : (picked.map nameOf).count name = names.count name := by
  rw [picks.names, List.count_filter (by simpa using known)]

end Picks

theorem picks_agentOf? (agents : List Agent) (roles : List String) :
    Picks Agent.role agents roles (roles.filterMap (agentOf? agents)) := picks_lastNamed? Agent.role agents roles

theorem picks_taskOf? (tasks : List CrewTask) (names : List String) :
    Picks CrewTask.name tasks names (names.filterMap (taskOf? tasks)) := picks_lastNamed? CrewTask.name tasks names

/-! ## Managers -/

section Managers
variable {pool before after : List Agent} {manager : Agent} {role : String}

theorem exists_split_of_mem (member : role ∈ pool.map (·.role)) :
    ∃ before manager after, pool = before ++ manager :: after ∧ manager.role = role ∧
      role ∉ before.map (·.role) := by
  obtain ⟨roles, others, split, first⟩ := List.eq_append_cons_of_mem member
  obtain ⟨before, rest, rfl, rfl, listed⟩ := List.map_eq_append_iff.mp split
  obtain ⟨manager, after, rfl, isManager, rfl⟩ := List.map_eq_cons_iff.mp listed
  exact ⟨before, manager, after, rfl, isManager, first⟩

theorem withManager_of_split {spec : CrewSpec} (process : spec.process = .hierarchical)
    (asked : spec.manager = some role) (isManager : manager.role = role) (first : role ∉ before.map (·.role)) :
    withManager spec (before ++ manager :: after) = (.hierarchical, some manager, before ++ after) := by
  have place : (before ++ manager :: after).findIdx? (fun a => a.role == role) = some before.length := by
    have nobody : before.findIdx? (fun a => a.role == role) = none := by
      simpa [List.findIdx?_eq_none_iff] using first
    simp [List.findIdx?_append, nobody, List.findIdx?_cons, isManager]
  rw [withManager, process, asked]
  dsimp only
  rw [Option.bind_some, place]
  simp [List.eraseIdx_append_of_length_le]

theorem withManager_of_nobody {spec : CrewSpec}
    (nobody : ∀ role, spec.process = .hierarchical → spec.manager = some role → role ∉ pool.map (·.role)) :
    withManager spec pool = (.sequential, none, pool) := by
  unfold withManager
  cases process : spec.process with
  | sequential => rfl
  | hierarchical =>
      cases asked : spec.manager with
      | none => rfl
      | some role =>
          have absent : pool.findIdx? (fun a => a.role == role) = none := by
            simpa [List.findIdx?_eq_none_iff] using nobody role process asked
          simp [absent]

end Managers

/-! ## Crews -/

/-- A declaration asks to be led by an agent that it can have: it is hierarchical, and the role of its manager is
that of an agent among those that it lists. -/
structure Led (agents : List Agent) (spec : CrewSpec) (role : String) : Prop where
  process : spec.process = .hierarchical
  asked : spec.manager = some role
  listed : role ∈ spec.agents
  known : role ∈ agents.map (·.role)

/-- A crew as its declaration asks for it. The first listing of a manager leaves the pool, the others stay. -/
structure Assembled (agents : List Agent) (tasks : List CrewTask) (spec : CrewSpec) (crew : Crew) : Prop where
  led : crew.process = .hierarchical ↔ ∃ role, Led agents spec role
  manager : ∀ role, Led agents spec role → ∃ before manager after,
    Picks Agent.role agents spec.agents (before ++ manager :: after) ∧ role ∉ before.map (·.role) ∧
      manager.role = role ∧ crew.manager = some manager ∧ crew.agents = before ++ after
  free : ∀ role, Led agents spec role → ((∀ a ∈ crew.agents, a.role ≠ role) ↔ spec.agents.count role = 1)
  unled : (¬∃ role, Led agents spec role) → crew.process = .sequential ∧ crew.manager = none ∧
    Picks Agent.role agents spec.agents crew.agents
  tasks : ∃ listed, Picks CrewTask.name tasks spec.tasks listed ∧ CrewTask.Arranges listed crew.tasks

/-- A declaration without the names that nothing bears. -/
def withoutUnknown (agents : List Agent) (tasks : List CrewTask) (spec : CrewSpec) : CrewSpec :=
  { spec with
    agents := spec.agents.filter fun role => (agents.map (·.role)).contains role
    tasks := spec.tasks.filter fun name => (tasks.map (·.name)).contains name }

section Crews
variable {agents : List Agent} {tasks : List CrewTask} {spec : CrewSpec}

theorem Led.unique {role other : String} (led : Led agents spec role) (again : Led agents spec other) :
    other = role := Option.some.inj (again.asked.symm.trans led.asked)

theorem withManager_of_led {pool : List Agent} {role : String} (led : Led agents spec role)
    (picks : Picks Agent.role agents spec.agents pool) :
    ∃ before manager after, pool = before ++ manager :: after ∧ role ∉ before.map (·.role) ∧ manager.role = role ∧
      withManager spec pool = (.hierarchical, some manager, before ++ after) := by
  obtain ⟨before, manager, after, rfl, isManager, first⟩ := exists_split_of_mem
    (picks.mem_iff.mpr ⟨led.listed, led.known⟩)
  exact ⟨before, manager, after, rfl, first, isManager,
    withManager_of_split led.process led.asked isManager first⟩

theorem withManager_of_unled {pool : List Agent} (unled : ¬∃ role, Led agents spec role)
    (picks : Picks Agent.role agents spec.agents pool) : withManager spec pool = (.sequential, none, pool) := by
  refine withManager_of_nobody fun role process asked member => unled ?_
  obtain ⟨listed, known⟩ := picks.mem_iff.mp member
  exact ⟨role, process, asked, listed, known⟩

/-- Once its first listing has left, a manager is out of the pool when there is no other. -/
theorem free_iff_count {before after : List Agent} {manager : Agent} {role : String} (led : Led agents spec role)
    (picks : Picks Agent.role agents spec.agents (before ++ manager :: after)) (isManager : manager.role = role)
    (first : role ∉ before.map (·.role)) :
    (∀ a ∈ before ++ after, a.role ≠ role) ↔ spec.agents.count role = 1 := by
  have listings : spec.agents.count role = (after.map (·.role)).count role + 1 := by
    rw [← picks.count_eq led.known, List.map_append, List.map_cons, List.count_append, List.count_eq_zero.mpr first,
      isManager, List.count_cons_self, Nat.zero_add]
  rw [listings, Nat.add_eq_right, List.count_eq_zero]
  constructor
  · intro free again
    obtain ⟨a, member, same⟩ := List.mem_map.mp again
    exact free a (List.mem_append_right before member) same
  · intro once a member same
    rcases List.mem_append.mp member with ahead | behind
    · exact first (same ▸ List.mem_map_of_mem ahead)
    · exact once (same ▸ List.mem_map_of_mem behind)

theorem assembled_crewFrom (agents : List Agent) (tasks : List CrewTask) (embedder : Option Memory.Embedder)
    (spec : CrewSpec) : Assembled agents tasks spec (crewFrom agents tasks embedder spec) := by
  have picks := picks_agentOf? agents spec.agents
  have listed : ∃ listed, Picks CrewTask.name tasks spec.tasks listed ∧
      CrewTask.Arranges listed (crewFrom agents tasks embedder spec).tasks :=
    ⟨_, picks_taskOf? tasks spec.tasks, CrewTask.arranges_inOrder _⟩
  by_cases led : ∃ role, Led agents spec role
  · -- Only one role can be that of the manager, so what holds of it holds of every role that leads.
    obtain ⟨role, isLed⟩ := led
    obtain ⟨before, manager, after, split, first, isManager, outcome⟩ := withManager_of_led isLed picks
    rw [split] at picks
    have parts : (crewFrom agents tasks embedder spec).process = .hierarchical ∧
        (crewFrom agents tasks embedder spec).manager = some manager ∧
        (crewFrom agents tasks embedder spec).agents = before ++ after := by
      simp only [crewFrom, outcome, and_self]
    refine ⟨⟨fun _ => ⟨role, isLed⟩, fun _ => parts.1⟩, ?_, ?_, fun unled => absurd ⟨role, isLed⟩ unled, listed⟩
    · intro other again
      obtain rfl := isLed.unique again
      exact ⟨before, manager, after, picks, first, isManager, parts.2⟩
    · intro other again
      obtain rfl := isLed.unique again
      rw [parts.2.2]
      exact free_iff_count isLed picks isManager first
  · have outcome := withManager_of_unled led picks
    have parts : (crewFrom agents tasks embedder spec).process = .sequential ∧
        (crewFrom agents tasks embedder spec).manager = none ∧
        (crewFrom agents tasks embedder spec).agents = spec.agents.filterMap (agentOf? agents) := by
      simp only [crewFrom, outcome, and_self]
    refine ⟨⟨fun process => ?_, fun isLed => absurd isLed led⟩, fun role isLed => absurd ⟨role, isLed⟩ led,
      fun role isLed => absurd ⟨role, isLed⟩ led, fun _ => ⟨parts.1, parts.2.1, ?_⟩, listed⟩
    · rw [parts.1] at process
      cases process
    · rw [parts.2.2]
      exact picks

theorem crewFrom_withoutUnknown (agents : List Agent) (tasks : List CrewTask)
    (embedder : Option Memory.Embedder) (spec : CrewSpec) :
    crewFrom agents tasks embedder (withoutUnknown agents tasks spec) = crewFrom agents tasks embedder spec := by
  have pool : (withoutUnknown agents tasks spec).agents.filterMap (agentOf? agents) =
      spec.agents.filterMap (agentOf? agents) := filterMap_lastNamed?_known Agent.role agents spec.agents
  have listed : (withoutUnknown agents tasks spec).tasks.filterMap (taskOf? tasks) =
      spec.tasks.filterMap (taskOf? tasks) := filterMap_lastNamed?_known CrewTask.name tasks spec.tasks
  rw [crewFrom, crewFrom, pool, listed]
  rfl

/-- A crew is led as its declaration asks where its agents allow it, and has the tasks and agents that are listed
and known. Its pool is free of its manager exactly when the manager is listed once. Unknown names make no
difference. -/
theorem crews_assembled_as_declared (agents : List Agent) (tasks : List CrewTask)
    (embedder : Option Memory.Embedder) (spec : CrewSpec) :
    Assembled agents tasks spec (crewFrom agents tasks embedder spec) ∧
      crewFrom agents tasks embedder (withoutUnknown agents tasks spec) = crewFrom agents tasks embedder spec :=
  ⟨assembled_crewFrom agents tasks embedder spec, crewFrom_withoutUnknown agents tasks embedder spec⟩

end Crews

def bareAgent (role : String) : Agent where
  role
  goal := ""
  backstory := ""
  model := ⟨"", fun _ => ⟨0, .ok ""⟩⟩
  tools := []
  limits := .default
  runsCode := false

def staff : List Agent := [bareAgent "editor", bareAgent "reader", bareAgent "writer"]

/-- A crew that lists a stranger, its editor and two others, one of them twice. -/
def editorial : CrewSpec :=
  ⟨"editorial", ["stranger", "writer", "editor", "reader", "writer"], [], .hierarchical, some "editor", false⟩

theorem editorial_assembled :
    (crewFrom staff [] none editorial).process = .hierarchical ∧
      ∀ a ∈ (crewFrom staff [] none editorial).agents, a.role ≠ "editor" := by
  obtain ⟨assembled, -⟩ := crews_assembled_as_declared staff [] none editorial
  have led : Led staff editorial "editor" := ⟨rfl, rfl, by decide, by decide⟩
  exact ⟨assembled.led.mpr ⟨"editor", led⟩, (assembled.free "editor" led).mpr (by decide)⟩

/-- A document whose crew lists its editor again behind the writer. -/
def redaction : Spec.Parsed where
  fields := [
    ("agents", .arr [
      .obj [("role", .str "editor"), ("goal", .str "edit"), ("backstory", .str "edits")],
      .obj [("role", .str "writer"), ("goal", .str "write"), ("backstory", .str "writes")]]),
    ("tasks", .arr [.obj [("name", .str "draft"), ("description", .str "Draft"), ("expected_output", .str "it")]]),
    ("crews", .arr [.obj [("name", .str "us"), ("agents", .arr [.str "editor", .str "writer", .str "editor"]),
      ("process", .str "hierarchical"), ("manager", .str "editor")]])]
  orchestration := .crew

/-- Every agent has a model that says nothing, and there is nothing else. -/
def silentHouse : Collaborators Id where
  resolve _ := .error (.config "no tools")
  modelFor _ := .ok ⟨"silent", fun _ => ⟨0, .ok ""⟩⟩
  embedderFor := none

theorem exists_ok_of_any {ε α : Type} {x : Except ε α} {good : α → Bool} (holds : x.toOption.any good = true) :
    ∃ a, x = .ok a ∧ good a = true := by
  cases x with
  | error e => cases holds
  | ok a => exact ⟨a, rfl, holds⟩

/-- The editor leads the crew and is in its pool. -/
theorem editor_listed_twice_stays_in_pool :
    ∃ w b crew, Spec.validate redaction = .ok w ∧ build silentHouse w = .ok b ∧ b.crews = [crew] ∧
      crew.process = .hierarchical ∧ crew.manager.map (·.role) = some "editor" ∧
      crew.agents.map (·.role) = ["writer", "editor"] := by
  have evaluated : ((Spec.validate redaction).toOption.any fun w => (build silentHouse w).run.toOption.any fun b =>
      b.crews.length == 1 && b.crews.all fun crew => crew.process == .hierarchical &&
        crew.manager.map (·.role) == some "editor" && crew.agents.map (·.role) == ["writer", "editor"]) = true := by
    decide +kernel
  obtain ⟨w, validated, evaluated⟩ := exists_ok_of_any evaluated
  obtain ⟨b, built, evaluated⟩ := exists_ok_of_any evaluated
  simp only [Bool.and_eq_true, beq_iff_eq, List.all_eq_true] at evaluated
  obtain ⟨one, each⟩ := evaluated
  obtain ⟨crew, alone⟩ := List.length_eq_one_iff.mp one
  obtain ⟨⟨process, manager⟩, pool⟩ := each crew (by simp [alone])
  exact ⟨w, b, crew, validated, built, alone, process, manager, pool⟩

end CrewFlow.Build
