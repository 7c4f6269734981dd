import Mathlib
import CrewFlow.Proofs.Build.Assembled
import CrewFlow.Proofs.Build.Noted
import CrewFlow.Proofs.Crew.Arrangement
import CrewFlow.Proofs.Spec.Keyed
import CrewFlow.Proofs.Tool.Gate
/-!
# Tools of a built workflow

The tools that were declared are resolved before anything else is asked for. When one of them cannot be had
nothing else is; when all of them can, each agent and each task has those of its own declarations, and the
crews consist of these agents and tasks.
-/
set_option autoImplicit false

namespace CrewFlow.Build

open Spec (AgentSpec ConfigError CrewSpec LlmSpec Orchestration TaskSpec ToolSpec Workflow)
open Tool (Granted LocalTool Owner Refused Request Resolution ToolError declarations gate_eq resolved verdict)

/-! ## What is declared -/

/-- The declarations of owners, each with its owner. -/
def owned {α : Type} (owner : α → Owner) (specs : α → List ToolSpec) (xs : List α) : List (Owner × ToolSpec) :=
  xs.flatMap fun x => (specs x).map fun s => (owner x, s)

/-- The declared tools of a workflow, each with its owner: those that the agents get and those of the
tasks. -/
def declared (w : Workflow) : List (Owner × ToolSpec) :=
  owned (fun a : AgentSpec => .agent a.role) Agent.effectiveTools w.agents ++
    owned (fun t : TaskSpec => .task t.name) (·.tools) w.tasks

theorem declarations_requests (w : Workflow) : declarations (requests w) = declared w := by
  have skip : ∀ rs : List Request, declarations (rs.filter fun r => !r.specs.isEmpty) = declarations rs := by
    intro rs
    induction rs with
    | nil => rfl
    | cons r rest ih =>
        have split : declarations (r :: rest) = r.specs.map (fun s => (r.owner, s)) ++ declarations rest := rfl
        by_cases none : r.specs.isEmpty = true
        · rw [List.filter_cons_of_neg (by simp [none]), ih, split, List.isEmpty_iff.mp none]
          rfl
        · rw [List.filter_cons_of_pos (by simp [none]), split, ← ih]
          rfl
  rw [requests, skip, declarations, List.flatMap_append, List.flatMap_map, List.flatMap_map]
  rfl

section Owned
variable {α : Type} {owner : α → Owner} {specs : α → List ToolSpec}

theorem owned_absent {xs : List α} {o : Owner} (absent : ∀ x ∈ xs, owner x ≠ o) :
    (owned owner specs xs).filter (·.1 = o) = [] := by
  rw [List.filter_eq_nil_iff]
  intro d member
  obtain ⟨x, present, own⟩ := List.mem_flatMap.mp member
  obtain ⟨s, _, rfl⟩ := List.mem_map.mp own
  simpa using absent x present

/-- Of owners that are all different, the declarations of one are its own. -/
theorem owned_mem {xs : List α} (distinct : (xs.map owner).Nodup) {x : α} (member : x ∈ xs) :
    ((owned owner specs xs).filter (·.1 = owner x)).map (·.2) = specs x := by
  obtain ⟨before, after, rfl⟩ := List.append_of_mem member
  rw [List.map_append, List.map_cons, List.nodup_middle, List.nodup_cons, List.mem_append, not_or] at distinct
  obtain ⟨⟨notBefore, notAfter⟩, _⟩ := distinct
  have own : owned owner specs (before ++ x :: after) =
      owned owner specs before ++ ((specs x).map (fun s => (owner x, s)) ++ owned owner specs after) := by
    simp [owned]
  have nothingBefore : (owned owner specs before).filter (·.1 = owner x) = [] :=
    owned_absent fun y present same => notBefore (List.mem_map.mpr ⟨y, present, same⟩)
  have nothingAfter : (owned owner specs after).filter (·.1 = owner x) = [] :=
    owned_absent fun y present same => notAfter (List.mem_map.mpr ⟨y, present, same⟩)
  rw [own, List.filter_append, List.filter_append, nothingBefore, nothingAfter]
  simp [List.filter_map, Function.comp_def]

end Owned

/-- Somebody has the tools that its own declarations came to, in order. -/
structure Wired (rs : List Resolution) (owner : Owner) (specs : List ToolSpec) (tools : List LocalTool) :
    Prop where
  declared : (rs.filter fun r => r.owner = owner).map (·.spec) = specs
  tools : tools = (rs.filter fun r => r.owner = owner).flatMap Resolution.tools

/-! ## Agents and tasks -/

theorem agentsFrom_tools {models : List (AgentSpec × Except String Agent.ChatModel)}
    (distinct : (models.map fun found => found.1.role).Nodup) {i : Nat} {granted : Granted}
    {own : Owner → List LocalTool}
    (given : ∀ found ∈ models, granted.of (.agent found.1.role) = own (.agent found.1.role))
    (clean : (agentsFrom i granted models).1 = []) :
    List.Forall₂ (fun found a => a.role = found.1.role ∧ a.tools = own (.agent found.1.role)) models
        (agentsFrom i granted models).2.1 ∧
      ∀ name, Granted.of (agentsFrom i granted models).2.2 (.task name) = granted.of (.task name) := by
  induction models generalizing i granted with
  | nil => exact ⟨.nil, fun _ => rfl⟩
  | cons found rest ih =>
      obtain ⟨spec, outcome⟩ := found
      rw [List.map_cons, List.nodup_cons] at distinct
      cases outcome with
      | error cause => cases clean
      | ok model =>
          -- What the first agent takes is nobody else's, so the others still find their own.
          have left : ∀ found ∈ rest, Granted.of (granted.take (.agent spec.role)).2 (.agent found.1.role) =
              own (.agent found.1.role) := by
            intro found later
            have different : Owner.agent found.1.role ≠ .agent spec.role := by
              intro same
              exact distinct.1 (List.mem_map.mpr ⟨found, later, Owner.agent.inj same⟩)
            rw [Granted.of_take, if_neg different, given found (List.mem_cons_of_mem _ later)]
          obtain ⟨agents, tasks⟩ := ih distinct.2 left clean
          refine ⟨.cons ⟨rfl, given _ List.mem_cons_self⟩ agents, fun name => ?_⟩
          exact (tasks name).trans ((granted.of_take _ _).trans (if_neg nofun))

theorem tasksFrom_tools {kind : Orchestration} {agents : List Agent} {names : List String}
    {specs : List TaskSpec} (distinct : (specs.map (·.name)).Nodup) {granted : Granted}
    {own : Owner → List LocalTool}
    (given : ∀ spec ∈ specs, granted.of (.task spec.name) = own (.task spec.name))
    {tasks : List CrewTask} (built : tasksFrom kind agents names granted specs = .ok tasks) :
    List.Forall₂ (fun (spec : TaskSpec) (t : CrewTask) => t.name = spec.name ∧ t.tools = own (.task spec.name))
      specs tasks := by
  induction specs generalizing granted tasks with
  | nil =>
      cases built
      exact .nil
  | cons spec rest ih =>
      rw [List.map_cons, List.nodup_cons] at distinct
      cases owner : ownerOf kind agents spec with
      | error e => simp [tasksFrom, owner, bind, Except.bind] at built
      | ok agent =>
          cases others : tasksFrom kind agents names (granted.take (.task spec.name)).2 rest with
          | error e => simp [tasksFrom, owner, others, bind, Except.bind] at built
          | ok later =>
              simp only [tasksFrom, owner, others, bind, Except.bind, pure, Except.pure] at built
              cases built
              refine .cons ⟨rfl, given spec List.mem_cons_self⟩ (ih distinct.2 (fun other member => ?_) others)
              have different : Owner.task other.name ≠ .task spec.name := by
                intro same
                exact distinct.1 (List.mem_map.mpr ⟨other, member, Owner.task.inj same⟩)
              rw [Granted.of_take, if_neg different, given other (List.mem_cons_of_mem _ member)]

/-! ## Crews -/

theorem mem_of_agentOf? {agents : List Agent} {role : String} {a : Agent}
    (found : agentOf? agents role = some a) : a ∈ agents := List.mem_reverse.mp (List.mem_of_find?_eq_some found)

theorem mem_of_taskOf? {tasks : List CrewTask} {name : String} {t : CrewTask}
    (found : taskOf? tasks name = some t) : t ∈ tasks := List.mem_reverse.mp (List.mem_of_find?_eq_some found)

theorem withManager_members (spec : CrewSpec) (pool : List Agent) {a : Agent}
    (member : a ∈ (withManager spec pool).2.2 ∨ a ∈ (withManager spec pool).2.1) : a ∈ pool := by
  unfold withManager at member
  split at member
  · exact member.resolve_right nofun
  · split at member
    · rcases member with other | manager
      · exact List.mem_of_mem_eraseIdx other
      · exact List.mem_of_getElem? manager
    · exact member.resolve_right nofun

section Crews
variable {agents : List Agent} {tasks : List CrewTask} {embedder : Option Memory.Embedder} {spec : CrewSpec}

theorem crewFrom_members {a : Agent} (member : a ∈ (crewFrom agents tasks embedder spec).agents ∨
    a ∈ (crewFrom agents tasks embedder spec).manager) : a ∈ agents := by
  obtain ⟨role, _, found⟩ := List.mem_filterMap.mp (withManager_members spec _ member)
  exact mem_of_agentOf? found

theorem crewFrom_tasks {t : CrewTask} (member : t ∈ (crewFrom agents tasks embedder spec).tasks) :
    t ∈ tasks := by
  obtain ⟨name, _, found⟩ := List.mem_filterMap.mp ((CrewTask.inOrder_perm _).mem_iff.mp member)
  exact mem_of_taskOf? found

end Crews

/-! ## Builds -/

/-- Agents and tasks, each with its own tools, and crews made of them. -/
structure Furnished (w : Workflow) (own : Owner → List LocalTool) (b : Built) : Prop where
  agents : List.Forall₂ (fun (spec : AgentSpec) (a : Agent) =>
    a.role = spec.role ∧ a.tools = own (.agent spec.role)) w.agents b.agents
  tasks : List.Forall₂ (fun (spec : TaskSpec) (t : CrewTask) =>
    t.name = spec.name ∧ t.tools = own (.task spec.name)) w.tasks b.tasks
  crews : List.Forall₂ (fun (spec : CrewSpec) (crew : Crew) =>
    ∃ embedder, crew = crewFrom b.agents b.tasks embedder spec) w.crews b.crews

theorem exists_of_mem_forall₂ {α β : Type} {R : α → β → Prop} {xs : List α} {ys : List β}
    (related : List.Forall₂ R xs ys) {y : β} (member : y ∈ ys) : ∃ x ∈ xs, R x y := by
  induction related with
  | nil => cases member
  | @cons x _ xs _ here _ ih =>
      rcases List.mem_cons.mp member with rfl | later
      · exact ⟨x, List.mem_cons_self, here⟩
      · obtain ⟨x, present, there⟩ := ih later
        exact ⟨x, List.mem_cons_of_mem _ present, there⟩

theorem Furnished.exists_crewFrom {w : Workflow} {own : Owner → List LocalTool} {b : Built}
    (furnished : Furnished w own b) {crew : Crew} (member : crew ∈ b.crews) :
    ∃ spec embedder, crew = crewFrom b.agents b.tasks embedder spec := by
  obtain ⟨spec, _, assembled⟩ := exists_of_mem_forall₂ furnished.crews member
  exact ⟨spec, assembled⟩

section Builds
variable {m : Type → Type} [Monad m] [LawfulMonad m]

theorem notes_assemble (c : Collaborators m) {w : Workflow} (formed : Spec.WellFormed w) (granted : Granted) :
    Notes (assemble c.noted w granted) fun outcome _ =>
      ∀ b, outcome = .ok b → Furnished w granted.of b := by
  have asked : Notes (w.agents.mapM fun a => do return (a, ← c.noted.modelFor a.llm)) fun models _ =>
      List.Forall₂ (fun (a : AgentSpec) (found : AgentSpec × Except String Agent.ChatModel) => found.1 = a)
        w.agents models :=
    .mapM fun a _ => (notes_note _ _).bind fun model _ _ => .pure rfl
  refine asked.bind fun models _ same => ?_
  have specs : models.map (·.1) = w.agents := (map_eq_of_forall₂ same).trans (List.map_id _)
  have distinct : (models.map fun found => found.1.role).Nodup := by
    have roles := formed.roles.distinct
    rwa [← specs, List.map_map] at roles
  have own : ∀ found ∈ models, granted.of (.agent found.1.role) = granted.of (.agent found.1.role) :=
    fun _ _ => rfl
  have wired := agentsFrom_tools distinct own (i := 0)
  generalize agentsFrom 0 granted models = checked at wired ⊢
  obtain ⟨issues, agents, left⟩ := checked
  by_cases clean : issues.isEmpty = true
  · obtain ⟨agentTools, taskTools⟩ := wired (List.isEmpty_iff.mp clean)
    simp only [clean, Bool.not_true, Bool.false_eq_true, if_false]
    cases built : tasksFrom w.orchestration agents (w.tasks.map (·.name)) left w.tasks with
    | error e => exact .pure nofun
    | ok tasks =>
        have crews : Notes (w.crews.mapM fun spec => do
            return crewFrom agents tasks (← embedderOf c.noted spec) spec) fun crews _ =>
            List.Forall₂ (fun spec crew => ∃ embedder, crew = crewFrom agents tasks embedder spec)
              w.crews crews :=
          .mapM fun spec _ => (notes_embedderOf c spec).bind fun embedder _ _ => .pure ⟨embedder, rfl⟩
        refine crews.bind fun crews _ assembled => .pure fun b same => ?_
        cases same
        refine ⟨?_, ?_, assembled⟩
        · rw [← specs]
          exact List.forall₂_map_left_iff.mpr agentTools
        · exact tasksFrom_tools formed.taskNames.distinct (fun spec _ => taskTools spec.name) built
  · simp only [clean, Bool.not_false, if_true]
    exact .pure nofun

/-- The tools that somebody who works for a crew can use: those of its agents, of its manager and of its
tasks. -/
def Reaches (crew : Crew) (tool : LocalTool) : Prop :=
  (∃ a, (a ∈ crew.agents ∨ a ∈ crew.manager) ∧ tool ∈ a.tools) ∨ ∃ t ∈ crew.tasks, tool ∈ t.tools

/-- A workflow that is built from what its declarations came to: its agents and tasks have the tools of their
own declarations, its crews consist of these agents and tasks, and no crew can use a tool that is not valid. -/
structure WiredFrom (w : Workflow) (rs : List Resolution) (b : Built) : Prop where
  agents : List.Forall₂ (fun (spec : AgentSpec) (a : Agent) =>
    a.role = spec.role ∧ Wired rs (.agent spec.role) (Agent.effectiveTools spec) a.tools) w.agents b.agents
  tasks : List.Forall₂ (fun (spec : TaskSpec) (t : CrewTask) =>
    t.name = spec.name ∧ Wired rs (.task spec.name) spec.tools t.tools) w.tasks b.tasks
  crews : b.crews.map (·.name) = w.crews.map (·.name)
  members : ∀ crew ∈ b.crews, ∀ a, a ∈ crew.agents ∨ a ∈ crew.manager → a ∈ b.agents
  work : ∀ crew ∈ b.crews, ∀ t ∈ crew.tasks, t ∈ b.tasks
  valid : ∀ crew ∈ b.crews, ∀ tool, Reaches crew tool → tool.validate.run = .ok ()

theorem specs_of_declared {w : Workflow} {rs : List Resolution}
    (named : rs.map (fun r => (r.owner, r.spec)) = declared w) (owner : Owner) :
    (rs.filter fun r => r.owner = owner).map (·.spec) = ((declared w).filter (·.1 = owner)).map (·.2) := by
  rw [← named, List.filter_map, List.map_map]
  rfl

/-- Roles and task names that are all different make owners that are all different, so each declaration has
one owner. -/
theorem specs_of_agent {w : Workflow} (formed : Spec.WellFormed w) {a : AgentSpec} (member : a ∈ w.agents) :
    ((declared w).filter (·.1 = .agent a.role)).map (·.2) = Agent.effectiveTools a := by
  have distinct : (w.agents.map fun a => Owner.agent a.role).Nodup := by
    have roles := formed.roles.distinct.map fun a b => Owner.agent.inj
    rwa [List.map_map] at roles
  have others : (owned (fun t : TaskSpec => .task t.name) (·.tools) w.tasks).filter
      (·.1 = .agent a.role) = [] := owned_absent fun _ _ => nofun
  rw [declared, List.filter_append, others, List.append_nil]
  exact owned_mem distinct member

theorem specs_of_task {w : Workflow} (formed : Spec.WellFormed w) {t : TaskSpec} (member : t ∈ w.tasks) :
    ((declared w).filter (·.1 = .task t.name)).map (·.2) = t.tools := by
  have distinct : (w.tasks.map fun t => Owner.task t.name).Nodup := by
    have names := formed.taskNames.distinct.map fun a b => Owner.task.inj
    rwa [List.map_map] at names
  have others : (owned (fun a : AgentSpec => .agent a.role) Agent.effectiveTools w.agents).filter
      (·.1 = .task t.name) = [] := owned_absent fun _ _ => nofun
  rw [declared, List.filter_append, others, List.nil_append]
  exact owned_mem distinct member

theorem valid_of_of {rs : List Resolution} (pass : ∀ r ∈ rs, r.Passes) {owner : Owner} {tool : LocalTool}
    (member : tool ∈ Granted.of (rs.flatMap Resolution.granted) owner) : tool.validate.run = .ok () := by
  rw [Tool.of_granted] at member
  obtain ⟨r, present, offered⟩ := List.mem_flatMap.mp member
  obtain ⟨tools, outcome, valid⟩ := pass r (List.mem_of_mem_filter present)
  rw [Resolution.tools, outcome] at offered
  exact valid tool offered

theorem wiredFrom {w : Workflow} (formed : Spec.WellFormed w) {rs : List Resolution}
    (named : rs.map (fun r => (r.owner, r.spec)) = declared w) (pass : ∀ r ∈ rs, r.Passes) {b : Built}
    (furnished : Furnished w (Granted.of (rs.flatMap Resolution.granted)) b) : WiredFrom w rs b where
  agents := by
    refine ((List.forall₂_and_left _ _).mpr ⟨fun a => specs_of_agent formed, furnished.agents⟩).imp ?_
    rintro spec a ⟨declared, role, tools⟩
    exact ⟨role, (specs_of_declared named _).trans declared, tools.trans (Tool.of_granted ..)⟩
  tasks := by
    refine ((List.forall₂_and_left _ _).mpr ⟨fun t => specs_of_task formed, furnished.tasks⟩).imp ?_
    rintro spec t ⟨declared, name, tools⟩
    exact ⟨name, (specs_of_declared named _).trans declared, tools.trans (Tool.of_granted ..)⟩
  crews := by
    refine map_eq_of_forall₂ (furnished.crews.imp ?_)
    rintro spec crew ⟨embedder, rfl⟩
    exact name_crewFrom ..
  members := by
    intro crew member a worker
    obtain ⟨spec, embedder, rfl⟩ := furnished.exists_crewFrom member
    exact crewFrom_members worker
  work := by
    intro crew member t task
    obtain ⟨spec, embedder, rfl⟩ := furnished.exists_crewFrom member
    exact crewFrom_tasks task
  valid := by
    intro crew member tool reached
    obtain ⟨spec, embedder, rfl⟩ := furnished.exists_crewFrom member
    rcases reached with ⟨a, worker, offered⟩ | ⟨t, task, offered⟩
    · obtain ⟨_, _, _, own⟩ := exists_of_mem_forall₂ furnished.agents (crewFrom_members worker)
      exact valid_of_of pass (own ▸ offered)
    · obtain ⟨_, _, _, own⟩ := exists_of_mem_forall₂ furnished.tasks (crewFrom_tasks task)
      exact valid_of_of pass (own ▸ offered)

/-- What a build comes to when its declarations came to `rs` and `rest` was asked for after that. A declared
tool that cannot be had stops it before anything else is asked for, and nothing else is such a failure. -/
structure Decides (w : Workflow) (rs : List Resolution) (rest : List Asked)
    (outcome : Except BuildError Built) : Prop where
  stopped : (∃ r ∈ rs, ¬ r.Passes) →
    rest = [] ∧ ∃ e, outcome = .error (.connectivity e) ∧ Refused rs e.failures
  goesOn : (∀ r ∈ rs, r.Passes) → ∀ e, outcome ≠ .error (.connectivity e)
  built : ∀ b, outcome = .ok b → (∀ r ∈ rs, r.Passes) ∧ WiredFrom w rs b

theorem decides_of_refused (w : Workflow) {rs : List Resolution} {e : ConnectivityError}
    (refusal : verdict rs = .error e) : Decides w rs [] (.error (.connectivity e)) where
  stopped _ := by
    obtain ⟨some, rfl⟩ := Tool.verdict_error_iff.mp refusal
    exact ⟨rfl, _, rfl, Tool.refused some⟩
  goesOn pass := by
    cases refusal.symm.trans (Tool.verdict_ok_iff.mpr ⟨pass, rfl⟩)
  built _ same := nomatch same

theorem decides_of_granted {w : Workflow} (formed : Spec.WellFormed w) {rs : List Resolution}
    (named : rs.map (fun r => (r.owner, r.spec)) = declared w) {granted : Granted}
    (passed : verdict rs = .ok granted) (rest : List Asked) {outcome : Except ConfigError Built}
    (furnished : ∀ b, outcome = .ok b → Furnished w granted.of b) :
    Decides w rs rest (outcome.mapError .config) := by
  obtain ⟨pass, rfl⟩ := Tool.verdict_ok_iff.mp passed
  refine ⟨?_, ?_, ?_⟩
  · rintro ⟨r, member, fails⟩
    exact absurd (pass r member) fails
  · intro _ e same
    cases outcome <;> cases same
  · intro b same
    cases outcome with
    | error e => cases same
    | ok built =>
        cases same
        exact ⟨pass, wiredFrom formed named pass (furnished b rfl)⟩

theorem exists_interpreter {w : Workflow} {a : AgentSpec} (member : a ∈ w.agents)
    (allowed : a.allowCodeExecution = true) :
    ∃ s, s.isCodeInterpreter = true ∧ (.agent a.role, s) ∈ declared w := by
  have listed : ∃ s ∈ Agent.effectiveTools a, s.isCodeInterpreter = true := by
    unfold Agent.effectiveTools
    by_cases present : a.tools.any ToolSpec.isCodeInterpreter = true
    · rw [present, Bool.not_true, Bool.and_false]
      exact List.any_eq_true.mp present
    · exact ⟨.native ToolSpec.codeInterpreter [], by simp [present, allowed], rfl⟩
  obtain ⟨s, own, interpreter⟩ := listed
  refine ⟨s, interpreter, List.mem_append_left _ (List.mem_flatMap.mpr ⟨a, member, ?_⟩)⟩
  exact List.mem_map_of_mem own

/-- Before anything else, a build resolves each declared tool once, in order. If one of them is not resolved or
not valid, the build fails with what is wrong, and nobody is asked for a model or an embedder. If all of them
are, no such failure comes up, and a workflow that is built has each tool where it was declared and nowhere
else. An agent that may execute code declares the code interpreter. To write down what is asked does not
change any answer. -/
theorem build_all_or_nothing (c : Collaborators m) {w : Workflow} (validated : Spec.Validated w) :
    (∀ log, Prod.fst <$> (build c.noted w).run log = build c w) ∧
    (∀ a ∈ w.agents, a.allowCodeExecution = true →
      ∃ s, s.isCodeInterpreter = true ∧ (.agent a.role, s) ∈ declared w) ∧
    SatisfiesM (fun (outcome, asked) => ∃ outcomes rest,
      outcomes.length = (declared w).length ∧
      asked = (declared w).zipWith (fun d outcome => .tools d.2 outcome) outcomes ++ rest ∧
      Decides w ((declared w).zipWith (fun d outcome => ⟨d.1, d.2, outcome⟩) outcomes) rest outcome)
      ((build c.noted w).run []) := by
  refine ⟨answersAs_build c w, fun a => exists_interpreter, ?_⟩
  have gated : Tool.gate c.noted.resolve (requests w) =
      (fun outcomes => verdict (resolved (requests w) outcomes)) <$>
        (declared w).mapM fun d => c.noted.resolve d.2 := by
    rw [gate_eq, declarations_requests]
  have whole : Notes (build c.noted w) fun outcome asked => ∃ outcomes rest,
      outcomes.length = (declared w).length ∧
      asked = (declared w).zipWith (fun d outcome => .tools d.2 outcome) outcomes ++ rest ∧
      Decides w (resolved (requests w) outcomes) rest outcome := by
    rw [build, gated, bind_map_left]
    refine (notes_resolve c (declared w)).bind fun outcomes first ⟨count, asked⟩ => ?_
    -- The verdict is all that the rest of the build learns about the declarations.
    cases decided : verdict (resolved (requests w) outcomes) with
    | error e =>
        refine .pure ⟨outcomes, [], count, ?_, decides_of_refused w decided⟩
        rw [asked]
    | ok granted =>
        have formed := validated.wellFormed
        have named : (resolved (requests w) outcomes).map (fun r => (r.owner, r.spec)) = declared w := by
          rw [← declarations_requests] at count ⊢
          exact (Tool.map_resolved count).1
        refine (notes_assemble c formed granted).bind fun outcome later furnished => .pure ?_
        refine ⟨outcomes, later, count, ?_, decides_of_granted formed named decided later furnished⟩
        rw [asked, List.append_nil]
  refine (whole []).imp ?_
  rintro ⟨outcome, asked⟩ ⟨more, rfl, settled⟩
  simpa only [resolved, declarations_requests] using settled

end Builds

def bench : Spec.Parsed where
  fields := [
    ("agents", .arr [.obj [("role", .str "me"), ("goal", .str "look"), ("backstory", .str "me"),
      ("tools", .arr [.str "search"]), ("allow_code_execution", .bool true)]]),
    ("tasks", .arr [.obj [("name", .str "t"), ("description", .str "look"), ("expected_output", .str "it")]]),
    ("crews", .arr [.obj [("name", .str "us")]])]
  orchestration := .flow

theorem bench_named : Spec.StateNamed bench := by
  intro decls found
  cases found

/-- Collaborators who have one tool. -/
def workshop : Collaborators Id where
  resolve spec :=
    if spec.identifier = "search" then .ok [Tool.echo "search" (.ok ())] else .error (.config "not here")
  modelFor _ := .ok ⟨"plain", fun _ => ⟨0, .ok "Final Answer: 1"⟩⟩
  embedderFor := none

/-- The code interpreter cannot be had, so no model is asked for. -/
theorem bench_not_built :
    ∃ w e, Spec.Validated w ∧ ((build workshop.noted w).run []).1 = .error (.connectivity e) ∧
      ((build workshop.noted w).run []).2.length = 2 := by
  have evaluated : (Spec.validate bench).toOption.map (fun w => ((declared w).length,
      ((build workshop.noted w).run []).2.map fun | .tools _ outcome => outcome.isOk | _ => true)) =
      some (2, [true, false]) := by
    decide +kernel
  cases checked : Spec.validate bench with
  | error e => simp [checked, Except.toOption] at evaluated
  | ok w =>
      simp only [checked, Except.toOption, Option.map_some, Option.some.injEq, Prod.mk.injEq] at evaluated
      obtain ⟨count, found⟩ := evaluated
      have settled := (build_all_or_nothing (m := Id) workshop (.document bench_named checked)).2.2
      rw [SatisfiesM_Id_eq] at settled
      obtain ⟨made, is⟩ : ∃ made, made = (build workshop.noted w).run [] := ⟨_, rfl⟩
      rw [← is] at settled found
      obtain ⟨outcome, asked⟩ := made
      obtain ⟨outcomes, rest, same, order, decides⟩ := settled
      obtain ⟨first, second, both⟩ := List.length_eq_two.mp count
      obtain ⟨has, lacks, rfl⟩ := List.length_eq_two.mp (same.trans count)
      rw [both] at order decides
      rw [order] at found
      have lacking : lacks.isOk = false := (List.cons_eq_cons.mp (List.cons_eq_cons.mp found).2).1
      have fails : ¬ Resolution.Passes ⟨second.1, second.2, lacks⟩ := by
        rintro ⟨tools, had, _⟩
        rw [show lacks = .ok tools from had] at lacking
        cases lacking
      obtain ⟨alone, e, refused, _⟩ := decides.stopped ⟨_, List.mem_cons_of_mem _ List.mem_cons_self, fails⟩
      refine ⟨w, e, .document bench_named checked, ?_⟩
      rw [← is, order, alone]
      exact ⟨refused, rfl⟩

end CrewFlow.Build
