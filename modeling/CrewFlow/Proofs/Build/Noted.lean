import Mathlib
import CrewFlow.Build.Assembly
/-!
# What a build asks for

Collaborators that write down what they are asked answer as those that do not, so what is known of a build
that is written down is known of every build. A list of what was asked only grows.
-/
set_option autoImplicit false

namespace CrewFlow.Build

open Spec (LlmSpec ToolSpec Workflow)
open Tool (LocalTool Owner ToolError)

/-- What a collaborator was asked: for the tools of a declaration, with what it came to, for a model, or for
the embedder of a crew. -/
inductive Asked where
  | tools (spec : ToolSpec) (outcome : Except ToolError (List LocalTool))
  | model (llm : Option LlmSpec)
  | embedder (crew : String)

section Noted
variable {m : Type → Type} [Monad m]

/-- Writes down what was asked. -/
def note {α : Type} (asked : α → Asked) (x : m α) : StateT (List Asked) m α := fun log => do
  let answer ← x
  return (answer, log ++ [asked answer])

/-- The same collaborators, with everything that they are asked written down. -/
def Collaborators.noted (c : Collaborators m) : Collaborators (StateT (List Asked) m) where
  resolve spec := note (.tools spec) (c.resolve spec)
  modelFor llm := note (fun _ => .model llm) (c.modelFor llm)
  embedderFor := c.embedderFor.map fun provide crew => note (fun _ => .embedder crew) (provide crew)

/-! ## Answers are the same -/

def AnswersAs {α : Type} (x : StateT (List Asked) m α) (y : m α) : Prop :=
  ∀ log, Prod.fst <$> x.run log = y

variable [LawfulMonad m] {α β : Type}

theorem AnswersAs.pure (a : α) : AnswersAs (pure a : StateT (List Asked) m α) (pure a) := by
  intro log
  simp

theorem answersAs_note (asked : α → Asked) (x : m α) : AnswersAs (note asked x) x := by
  intro log
  simp [note, StateT.run]

theorem AnswersAs.bind {x : StateT (List Asked) m α} {y : m α} {f : α → StateT (List Asked) m β}
    {g : α → m β} (same : AnswersAs x y) (rest : ∀ a, AnswersAs (f a) (g a)) :
    AnswersAs (x >>= f) (y >>= g) := by
  intro log
  calc Prod.fst <$> (x >>= f).run log
      = x.run log >>= fun r => Prod.fst <$> (f r.1).run r.2 := by simp
    _ = x.run log >>= fun r => g r.1 := congrArg _ (funext fun r => rest r.1 r.2)
    _ = (Prod.fst <$> x.run log) >>= g := by simp
    _ = y >>= g := by rw [same log]

theorem AnswersAs.mapM {f : α → StateT (List Asked) m β} {g : α → m β} (same : ∀ a, AnswersAs (f a) (g a))
    (xs : List α) : AnswersAs (xs.mapM f) (xs.mapM g) := by
  induction xs with
  | nil => exact .pure []
  | cons x rest ih =>
      rw [List.mapM_cons, List.mapM_cons]
      exact (same x).bind fun y => ih.bind fun ys => .pure (y :: ys)

theorem answersAs_embedderOf (c : Collaborators m) (spec : Spec.CrewSpec) :
    AnswersAs (embedderOf c.noted spec) (embedderOf c spec) := by
  unfold embedderOf
  by_cases memory : spec.memory = true
  · simp only [memory, Bool.not_true, Bool.false_eq_true, if_false]
    cases provider : c.embedderFor with
    | none =>
        simp only [Collaborators.noted, provider, Option.map_none]
        exact .pure _
    | some provide =>
        simp only [Collaborators.noted, provider, Option.map_some]
        refine (answersAs_note _ _).bind fun answer => ?_
        cases answer <;> exact .pure _
  · simp only [memory, Bool.not_false, if_true]
    exact .pure none

theorem answersAs_assemble (c : Collaborators m) (w : Workflow) (granted : Tool.Granted) :
    AnswersAs (assemble c.noted w granted) (assemble c w granted) := by
  have models := AnswersAs.mapM (fun a : Spec.AgentSpec =>
    (answersAs_note (fun _ => .model a.llm) (c.modelFor a.llm)).bind fun model => .pure (a, model)) w.agents
  refine models.bind fun models => ?_
  obtain ⟨issues, agents, left⟩ := agentsFrom 0 granted models
  by_cases clean : issues.isEmpty = true
  · simp only [clean, Bool.not_true, Bool.false_eq_true, if_false]
    cases tasksFrom w.orchestration agents (w.tasks.map (·.name)) left w.tasks with
    | error e => exact .pure _
    | ok tasks =>
        have crews := AnswersAs.mapM (fun spec : Spec.CrewSpec =>
          (answersAs_embedderOf c spec).bind fun embedder => .pure (crewFrom agents tasks embedder spec))
          w.crews
        exact crews.bind fun crews => .pure _
  · simp only [clean, Bool.not_false, if_true]
    exact .pure _

/-- A build whose questions are written down answers as one whose questions are not. -/
theorem answersAs_build (c : Collaborators m) (w : Workflow) : AnswersAs (build c.noted w) (build c w) := by
  have resolutions := AnswersAs.mapM (fun d : Owner × ToolSpec =>
    (answersAs_note (.tools d.2) (c.resolve d.2)).bind fun outcome =>
      .pure (Tool.Resolution.mk d.1 d.2 outcome))
    (Tool.declarations (requests w))
  have passing : AnswersAs (Tool.gate c.noted.resolve (requests w)) (Tool.gate c.resolve (requests w)) :=
    resolutions.bind fun rs => .pure (Tool.verdict rs)
  refine passing.bind fun verdict => ?_
  cases verdict with
  | error e => exact .pure _
  | ok granted => exact (answersAs_assemble c w granted).bind fun outcome => .pure _

/-! ## What has been asked -/

def Notes (x : StateT (List Asked) m α) (promise : α → List Asked → Prop) : Prop :=
  ∀ log, SatisfiesM (fun r => ∃ more, r.2 = log ++ more ∧ promise r.1 more) (x.run log)

theorem Notes.pure {promise : α → List Asked → Prop} {a : α} (kept : promise a []) :
    Notes (pure a : StateT (List Asked) m α) promise :=
  fun log => SatisfiesM.pure ⟨[], (List.append_nil log).symm, kept⟩

theorem notes_note (asked : α → Asked) (x : m α) :
    Notes (note asked x) fun answer more => more = [asked answer] := by
  intro log
  refine (SatisfiesM.trivial (x := x)).bind fun answer _ => ?_
  exact SatisfiesM.pure ⟨_, rfl, rfl⟩

theorem Notes.bind {x : StateT (List Asked) m α} {f : α → StateT (List Asked) m β}
    {promise : α → List Asked → Prop} {other : β → List Asked → Prop} (kept : Notes x promise)
    (rest : ∀ a more, promise a more → Notes (f a) fun b later => other b (more ++ later)) :
    Notes (x >>= f) other := by
  intro log
  rw [StateT.run_bind]
  refine (kept log).bind ?_
  rintro ⟨a, grown⟩ ⟨more, rfl, holds⟩
  refine (rest a more holds (log ++ more)).imp ?_
  rintro ⟨b, last⟩ ⟨later, rfl, ends⟩
  exact ⟨more ++ later, List.append_assoc log more later, ends⟩

/-- What every item comes to with its own promise, all of them come to together. -/
theorem Notes.mapM {promise : α → β → Prop} {f : α → StateT (List Asked) m β} {xs : List α}
    (each : ∀ x ∈ xs, Notes (f x) fun y _ => promise x y) :
    Notes (xs.mapM f) fun ys _ => List.Forall₂ promise xs ys := by
  induction xs with
  | nil => exact .pure .nil
  | cons x rest ih =>
      rw [List.mapM_cons]
      refine (each x List.mem_cons_self).bind fun y _ kept => ?_
      refine (ih fun z later => each z (List.mem_cons_of_mem x later)).bind fun ys _ others => ?_
      exact .pure (.cons kept others)

theorem notes_resolve (c : Collaborators m) (declared : List (Owner × ToolSpec)) :
    Notes (declared.mapM fun d => c.noted.resolve d.2) fun outcomes more =>
      outcomes.length = declared.length ∧
        more = declared.zipWith (fun d outcome => .tools d.2 outcome) outcomes := by
  induction declared with
  | nil => exact .pure ⟨rfl, rfl⟩
  | cons d rest ih =>
      rw [List.mapM_cons]
      refine (notes_note _ _).bind fun outcome _ first => ?_
      refine ih.bind fun outcomes _ others => ?_
      obtain ⟨count, rfl⟩ := others
      refine .pure ⟨congrArg Nat.succ count, ?_⟩
      rw [first, List.append_nil]
      rfl

theorem notes_embedderOf (c : Collaborators m) (spec : Spec.CrewSpec) :
    Notes (embedderOf c.noted spec) fun _ _ => True := by
  unfold embedderOf
  by_cases memory : spec.memory = true
  · simp only [memory, Bool.not_true, Bool.false_eq_true, if_false]
    cases provider : c.embedderFor with
    | none =>
        simp only [Collaborators.noted, provider, Option.map_none]
        exact .pure trivial
    | some provide =>
        simp only [Collaborators.noted, provider, Option.map_some]
        refine (notes_note _ _).bind fun answer _ _ => ?_
        cases answer <;> exact .pure trivial
  · simp only [memory, Bool.not_false, if_true]
    exact .pure trivial

end Noted

end CrewFlow.Build
