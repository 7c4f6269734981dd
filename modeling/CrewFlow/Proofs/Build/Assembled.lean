import Mathlib
import CrewFlow.Build.Assembly
import CrewFlow.Proofs.Spec.WellFormed
/-!
# Builds that succeed

A build fails for no other reason than its collaborators: where the tools pass the gate and every agent
has a model, a well-formed flow is built, with a crew for every declared one.
-/
set_option autoImplicit false

namespace CrewFlow.Build

open Spec (AgentSpec ConfigError CrewSpec Orchestration TaskSpec Workflow)
open Tool (Granted)

/-! ## Results in a monad -/

section Results
variable {m : Type → Type} [Monad m] [LawfulMonad m]

theorem satisfiesM_mapM {α β : Type} {promise : α → β → Prop} {f : α → m β} {xs : List α}
    (each : ∀ x ∈ xs, SatisfiesM (promise x) (f x)) :
    SatisfiesM (List.Forall₂ promise xs) (xs.mapM f) := by
  induction xs with
  | nil => exact SatisfiesM.pure .nil
  | cons x rest ih =>
      rw [List.mapM_cons]
      refine (each x List.mem_cons_self).bind fun y kept => ?_
      refine (ih fun z later => each z (List.mem_cons_of_mem x later)).bind fun ys others => ?_
      exact SatisfiesM.pure (.cons kept others)

end Results

/-! ## Agents and tasks -/

def Modelled (spec : AgentSpec) (found : AgentSpec × Except String Agent.ChatModel) : Prop :=
  found.1 = spec ∧ ∃ model, found.2 = .ok model

theorem agentsFrom_modelled {specs : List AgentSpec}
    {models : List (AgentSpec × Except String Agent.ChatModel)} (found : List.Forall₂ Modelled specs models)
    (i : Nat) (granted : Granted) :
    (agentsFrom i granted models).1 = [] ∧
      (agentsFrom i granted models).2.1.map (·.role) = specs.map (·.role) := by
  induction found generalizing i granted with
  | nil => exact ⟨rfl, rfl⟩
  | @cons spec model specs models here later ih =>
      obtain ⟨declared, outcome⟩ := model
      obtain ⟨rfl, chat, rfl⟩ := here
      obtain ⟨sound, roles⟩ := ih (i + 1) (granted.take (.agent declared.role)).2
      exact ⟨sound, congrArg (declared.role :: ·) roles⟩

theorem isSome_agentOf? {agents : List Agent} {role : String} (member : role ∈ agents.map (·.role)) :
    (agentOf? agents role).isSome = true := by
  obtain ⟨agent, built, rfl⟩ := List.mem_map.mp member
  rw [agentOf?, List.find?_isSome]
  exact ⟨agent, List.mem_reverse.mpr built, by simp⟩

theorem ownerOf_known (kind : Orchestration) {agents : List Agent} {spec : TaskSpec}
    (known : ∀ role ∈ spec.agent, role ∈ agents.map (·.role)) :
    ownerOf kind agents spec = .ok spec.agent := by
  unfold ownerOf
  cases named : spec.agent with
  | none => rfl
  | some role => exact if_pos (isSome_agentOf? (known role named))

theorem tasksFrom_known (kind : Orchestration) {agents : List Agent} (names : List String)
    {specs : List TaskSpec} (known : ∀ t ∈ specs, ∀ role ∈ t.agent, role ∈ agents.map (·.role))
    (granted : Granted) : ∃ tasks, tasksFrom kind agents names granted specs = .ok tasks := by
  induction specs generalizing granted with
  | nil => exact ⟨[], rfl⟩
  | cons spec rest ih =>
      obtain ⟨tasks, built⟩ := ih (fun t later => known t (List.mem_cons_of_mem spec later))
        (granted.take (.task spec.name)).2
      rw [tasksFrom, ownerOf_known kind (known spec List.mem_cons_self)]
      simp only [bind, Except.bind, built]
      exact ⟨_, rfl⟩

/-! ## Builds -/

section Builds
variable {m : Type → Type} [Monad m] [LawfulMonad m] {c : Collaborators m} {w : Workflow}

/-- What a crew document and a flow need of the collaborators: the tools that are asked for pass the gate,
and each agent can have its model. -/
structure Provides (c : Collaborators m) (w : Workflow) : Prop where
  tools : SatisfiesM (fun verdict => ∃ granted, verdict = .ok granted) (Tool.gate c.resolve (requests w))
  models : ∀ a ∈ w.agents, SatisfiesM (fun found => ∃ model, found = .ok model) (c.modelFor a.llm)

def Complete (w : Workflow) (outcome : Except ConfigError Built) : Prop :=
  ∃ b, outcome = .ok b ∧ b.crews.map (·.name) = w.crews.map (·.name)

theorem name_crewFrom (agents : List Agent) (tasks : List CrewTask) (embedder : Option Memory.Embedder)
    (spec : CrewSpec) : (crewFrom agents tasks embedder spec).name = spec.name := rfl

theorem map_eq_of_forall₂ {α β γ : Type} {f : α → γ} {g : β → γ} {xs : List α} {ys : List β}
    (same : List.Forall₂ (fun x y => g y = f x) xs ys) : ys.map g = xs.map f := by
  induction same with
  | nil => rfl
  | cons here _ ih => rw [List.map_cons, List.map_cons, here, ih]

theorem assemble_complete
    (models : ∀ a ∈ w.agents, SatisfiesM (fun found => ∃ model, found = .ok model) (c.modelFor a.llm))
    (owners : ∀ t ∈ w.tasks, ∀ role ∈ t.agent, role ∈ w.agents.map (·.role)) (granted : Granted) :
    SatisfiesM (Complete w) (assemble c w granted) := by
  have found : SatisfiesM (List.Forall₂ Modelled w.agents)
      (w.agents.mapM fun a => do return (a, ← c.modelFor a.llm)) := by
    refine satisfiesM_mapM fun a member => (models a member).bind fun model available => ?_
    exact SatisfiesM.pure ⟨rfl, available⟩
  refine found.bind fun models modelled => ?_
  obtain ⟨sound, roles⟩ := agentsFrom_modelled modelled 0 granted
  generalize agentsFrom 0 granted models = checked at sound roles ⊢
  obtain ⟨issues, agents, left⟩ := checked
  obtain rfl : issues = [] := sound
  have known : ∀ t ∈ w.tasks, ∀ role ∈ t.agent, role ∈ agents.map (·.role) := by
    rw [roles]
    exact owners
  obtain ⟨tasks, built⟩ := tasksFrom_known w.orchestration (w.tasks.map (·.name)) known left
  simp only [List.isEmpty_nil, Bool.not_true, Bool.false_eq_true, if_false, built]
  have crews : SatisfiesM (List.Forall₂ (fun (spec : CrewSpec) (crew : Crew) => crew.name = spec.name) w.crews)
      (w.crews.mapM fun spec => do return crewFrom agents tasks (← embedderOf c spec) spec) := by
    refine satisfiesM_mapM fun spec _ => ?_
    refine (SatisfiesM.of_true fun _ => trivial).bind fun embedder _ => ?_
    exact SatisfiesM.pure (name_crewFrom agents tasks embedder spec)
  refine crews.bind fun crews named => ?_
  exact SatisfiesM.pure ⟨_, rfl, map_eq_of_forall₂ named⟩

theorem build_complete (provides : Provides c w)
    (owners : ∀ t ∈ w.tasks, ∀ role ∈ t.agent, role ∈ w.agents.map (·.role)) :
    SatisfiesM (fun outcome => ∃ b, outcome = .ok b ∧ b.crews.map (·.name) = w.crews.map (·.name))
      (build c w) := by
  refine provides.tools.bind fun verdict passed => ?_
  obtain ⟨granted, rfl⟩ := passed
  refine (assemble_complete provides.models owners granted).bind fun outcome complete => ?_
  obtain ⟨b, rfl, names⟩ := complete
  exact SatisfiesM.pure ⟨b, rfl, names⟩

end Builds

end CrewFlow.Build
