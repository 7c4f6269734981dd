import Mathlib
import CrewFlow.Tool.Gate
/-!
# What passes the tool gate

The gate lets everything through or nothing. Which of the two it is, what each owner gets and which failures
are told depends on what the declarations came to, in the order in which they were made, and on nothing else.
-/
set_option autoImplicit false

namespace CrewFlow.Tool

open Spec (ToolSpec)

/-! ## Owners -/

/-- Different owners have different texts, also an agent and a task of one name. -/
theorem Owner.text_injective : Function.Injective Owner.text := by
  intro a b same
  have letters := congrArg String.toList same
  cases a <;> cases b <;> simp only [text, String.toList_append] at letters
  · have rest := List.append_cancel_left (List.append_cancel_right letters)
    rw [String.toList_inj.mp rest]
  · simp at letters
  · simp at letters
  · have rest := List.append_cancel_left (List.append_cancel_right letters)
    rw [String.toList_inj.mp rest]

theorem Granted.of_take (granted : Granted) (owner other : Owner) :
    Granted.of (granted.take owner).2 other = if other = owner then [] else granted.of other := by
  rw [Granted.take, Granted.of, List.filter_filter]
  by_cases same : other = owner
  · rw [if_pos same, same]
    simp
  · rw [if_neg same, Granted.of]
    congr 2
    funext g
    by_cases own : g.1 = other
    · simp [own, same]
    · simp [own]

/-! ## Resolutions -/

/-- The declarations of requests, each with what it came to. -/
def resolved (requests : List Request) (outcomes : List (Except ToolError (List LocalTool))) :
    List Resolution :=
  (declarations requests).zipWith (fun d outcome => ⟨d.1, d.2, outcome⟩) outcomes

/-- The tools that a declaration came to; a failure has none. -/
def Resolution.tools (r : Resolution) : List LocalTool := r.outcome.toOption.getD []

theorem Resolution.granted_eq (r : Resolution) : r.granted = r.tools.map fun t => (r.owner, t) := by
  unfold granted tools
  cases r.outcome <;> rfl

theorem of_granted (rs : List Resolution) (owner : Owner) :
    Granted.of (rs.flatMap Resolution.granted) owner =
      (rs.filter fun r => r.owner = owner).flatMap Resolution.tools := by
  induction rs with
  | nil => rfl
  | cons r rest ih =>
      rw [Granted.of] at ih ⊢
      rw [List.flatMap_cons, List.filter_append, List.map_append, ih, Resolution.granted_eq]
      by_cases own : r.owner = owner
      · rw [List.filter_cons_of_pos (by simpa using own), List.flatMap_cons]
        simp [List.filter_map, Function.comp_def, own]
      · rw [List.filter_cons_of_neg (by simpa using own)]
        simp [List.filter_map, Function.comp_def, own]

theorem length_granted (rs : List Resolution) :
    (rs.flatMap Resolution.granted).length = (rs.map fun r => r.tools.length).sum := by
  rw [List.length_flatMap]
  congr 1
  refine List.map_congr_left fun r _ => ?_
  rw [Resolution.granted_eq, List.length_map]

/-- Whether a declaration is resolved to tools that are all valid. -/
def Resolution.Passes (r : Resolution) : Prop :=
  ∃ tools, r.outcome = .ok tools ∧ ∀ t ∈ tools, t.validate.run = .ok ()

/-! ## Failures -/

/-- A failure tells of an owner's tool and of the error that it came to; it is local when the declaration is
at fault. -/
structure TellsOf (f : ToolFailure) (owner : Owner) (tool : String) (e : ToolError) : Prop where
  owner : f.owner = owner.text
  tool : f.tool = tool
  reason : f.reason = e.message
  isLocal : f.isLocal = true ↔ ∃ message, e = .config message

theorem tellsOf (owner : Owner) (tool : String) (e : ToolError) :
    TellsOf ⟨owner.text, tool, e.message, e.isLocal⟩ owner tool e where
  owner := rfl
  tool := rfl
  reason := rfl
  isLocal := by cases e <;> simp [ToolError.isLocal]

theorem forall₂_filterMap {α β : Type} {f : α → Option β} {p : α → Bool} {R : α → β → Prop}
    (gives : ∀ x, (p x = false ∧ f x = none) ∨ (p x = true ∧ ∃ y, f x = some y ∧ R x y)) (xs : List α) :
    List.Forall₂ R (xs.filter p) (xs.filterMap f) := by
  induction xs with
  | nil => exact .nil
  | cons x rest ih =>
      rcases gives x with ⟨out, nothing⟩ | ⟨kept, y, given, related⟩
      · rw [List.filter_cons_of_neg (by simp [out]), List.filterMap_cons_none nothing]
        exact ih
      · rw [List.filter_cons_of_pos kept, List.filterMap_cons_some given]
        exact .cons related ih

/-- One failure for each declaration that could not be resolved, in order. -/
theorem failures_of_resolutions (rs : List Resolution) :
    List.Forall₂ (fun r f => ∃ e, r.outcome = .error e ∧ TellsOf f r.owner r.spec.identifier e)
      (rs.filter fun r => !r.outcome.isOk) (rs.filterMap Resolution.failure?) := by
  refine forall₂_filterMap (fun r => ?_) rs
  unfold Resolution.failure?
  cases r.outcome with
  | ok tools => exact .inl ⟨rfl, rfl⟩
  | error e => exact .inr ⟨rfl, _, rfl, e, rfl, tellsOf ..⟩

theorem failures_of_tools (granted : Granted) :
    List.Forall₂ (fun g f => ∃ e, g.2.validate.run = .error e ∧ TellsOf f g.1 g.2.name e)
      (granted.filter fun g => !g.2.validate.run.isOk) (granted.filterMap invalid?) := by
  refine forall₂_filterMap (fun g => ?_) granted
  unfold invalid?
  cases g.2.validate.run with
  | ok _ => exact .inl ⟨rfl, rfl⟩
  | error e => exact .inr ⟨rfl, _, rfl, e, rfl, tellsOf ..⟩

theorem sortedByOwner_perm (failures : List ToolFailure) : (sortedByOwner failures).Perm failures :=
  List.mergeSort_perm failures _

/-- The failures of one owner stay in order when failures are sorted. -/
theorem filter_sortedByOwner (failures : List ToolFailure) (owner : String) :
    (sortedByOwner failures).filter (·.owner = owner) = failures.filter (·.owner = owner) := by
  let own : List ToolFailure := failures.filter (·.owner = owner)
  -- Those of one owner are equal for the order, so a stable sort keeps them as they are.
  have among : own.Sublist (sortedByOwner failures) := by
    refine List.sublist_mergeSort ?_ ?_ ?_ List.filter_sublist
    · intro a b c first second
      simp only [Bool.not_eq_true', decide_eq_false_iff_not, not_lt] at first second ⊢
      exact first.trans second
    · intro a b
      simp only [Bool.or_eq_true, Bool.not_eq_true', decide_eq_false_iff_not, not_lt]
      exact le_total a.owner b.owner
    · refine List.pairwise_of_forall_mem_list fun a first b second => ?_
      have left := of_decide_eq_true (List.mem_filter.mp first).2
      have right := of_decide_eq_true (List.mem_filter.mp second).2
      simp [left, right]
  have kept : own.Sublist ((sortedByOwner failures).filter (·.owner = owner)) := by
    simpa [own] using among.filter (·.owner = owner)
  have count := ((sortedByOwner_perm failures).filter (·.owner = owner)).length_eq
  exact (kept.eq_of_length count.symm).symm

/-! ## Verdicts -/

/-- What is handed out belongs to the owners: each gets the tools of its declarations in their order, whoever
takes them leaves those of the others, and there are no more than these. -/
structure HandedOut (rs : List Resolution) (granted : Granted) : Prop where
  own : ∀ owner, granted.of owner = (rs.filter fun r => r.owner = owner).flatMap Resolution.tools
  taken : ∀ owner, (granted.take owner).1 = granted.of owner
  left : ∀ owner other,
    Granted.of (granted.take owner).2 other = if other = owner then [] else granted.of other
  total : granted.length = (rs.map fun r => r.tools.length).sum

/-- The failures that are told: one for each declaration that is not resolved, in order, then one for each
tool that is resolved and not valid, those of one owner in order. -/
structure Refused (rs : List Resolution) (failures : List ToolFailure) : Prop where
  some : failures ≠ []
  told : ∃ first later listed : List ToolFailure,
    failures = first ++ later ∧
    List.Forall₂ (fun r f => ∃ e, r.outcome = .error e ∧ TellsOf f r.owner r.spec.identifier e)
      (rs.filter fun r => !r.outcome.isOk) first ∧
    List.Forall₂ (fun (g : Owner × LocalTool) f => ∃ e, g.2.validate.run = .error e ∧ TellsOf f g.1 g.2.name e)
      ((rs.flatMap fun r => r.tools.map fun t => (r.owner, t)).filter fun g => !g.2.validate.run.isOk) listed ∧
    later.Perm listed ∧
    ∀ owner : Owner, later.filter (·.owner = owner.text) = listed.filter (·.owner = owner.text)

theorem handedOut (rs : List Resolution) : HandedOut rs (rs.flatMap Resolution.granted) where
  own := of_granted rs
  taken _ := rfl
  left := Granted.of_take _
  total := length_granted rs

theorem refused {rs : List Resolution} (some : failuresOf rs ≠ []) : Refused rs (failuresOf rs) where
  some := some
  told := by
    have listed := failures_of_tools (rs.flatMap Resolution.granted)
    rw [funext Resolution.granted_eq] at listed
    refine ⟨_, _, _, rfl, failures_of_resolutions rs, listed, ?_, fun owner => ?_⟩
    · rw [funext Resolution.granted_eq]
      exact sortedByOwner_perm _
    · rw [funext Resolution.granted_eq]
      exact filter_sortedByOwner _ owner.text

theorem failuresOf_eq_nil_iff (rs : List Resolution) : failuresOf rs = [] ↔ ∀ r ∈ rs, r.Passes := by
  have unsorted : ∀ failures, sortedByOwner failures = [] ↔ failures = [] := by
    intro failures
    rw [← List.length_eq_zero_iff, (sortedByOwner_perm failures).length_eq, List.length_eq_zero_iff]
  rw [failuresOf, List.append_eq_nil_iff, unsorted, List.filterMap_eq_nil_iff, List.filterMap_eq_nil_iff]
  constructor
  · rintro ⟨settled, valid⟩ r member
    have found := settled r member
    unfold Resolution.failure? at found
    cases outcome : r.outcome with
    | error e => simp [outcome] at found
    | ok tools =>
        refine ⟨tools, outcome, fun t offered => ?_⟩
        have given : (r.owner, t) ∈ rs.flatMap Resolution.granted :=
          List.mem_flatMap.mpr ⟨r, member, by simp [Resolution.granted, outcome, offered]⟩
        have fine := valid _ given
        unfold invalid? at fine
        cases check : t.validate.run with
        | ok _ => rfl
        | error e => simp [check] at fine
  · intro pass
    refine ⟨fun r member => ?_, fun g given => ?_⟩
    · obtain ⟨tools, outcome, _⟩ := pass r member
      simp [Resolution.failure?, outcome]
    · obtain ⟨r, member, own⟩ := List.mem_flatMap.mp given
      obtain ⟨tools, outcome, valid⟩ := pass r member
      simp only [Resolution.granted, outcome, List.mem_map] at own
      obtain ⟨t, offered, rfl⟩ := own
      simp [invalid?, valid t offered]

theorem verdict_ok_iff {rs : List Resolution} {granted : Granted} :
    verdict rs = .ok granted ↔ (∀ r ∈ rs, r.Passes) ∧ granted = rs.flatMap Resolution.granted := by
  rw [← failuresOf_eq_nil_iff, ← List.isEmpty_iff]
  unfold verdict
  by_cases passed : (failuresOf rs).isEmpty = true
  · simp [passed, eq_comm]
  · simp [passed]

theorem verdict_error_iff {rs : List Resolution} {e : ConnectivityError} :
    verdict rs = .error e ↔ failuresOf rs ≠ [] ∧ e = ⟨failuresOf rs⟩ := by
  rw [Ne, ← List.isEmpty_iff]
  unfold verdict
  by_cases passed : (failuresOf rs).isEmpty = true
  · simp [passed]
  · simp [passed, eq_comm]

/-! ## The gate -/

section Gate
variable {m : Type → Type} [Monad m] [LawfulMonad m]

theorem gate_eq (resolve : ToolSpec → m (Except ToolError (List LocalTool))) (requests : List Request) :
    gate resolve requests =
      (fun outcomes => verdict (resolved requests outcomes)) <$>
        (declarations requests).mapM fun d => resolve d.2 := by
  have each : ∀ ds : List (Owner × ToolSpec),
      ds.mapM (fun d => Resolution.mk d.1 d.2 <$> resolve d.2) =
        List.zipWith (fun d outcome => ⟨d.1, d.2, outcome⟩) ds <$> ds.mapM fun d => resolve d.2 := by
    intro ds
    induction ds with
    | nil => simp
    | cons d rest ih =>
        rw [List.mapM_cons, List.mapM_cons, ih]
        simp
  have one : (fun (d : Owner × ToolSpec) => do return (⟨d.1, d.2, ← resolve d.2⟩ : Resolution)) =
      fun d => Resolution.mk d.1 d.2 <$> resolve d.2 := by
    funext d
    simp
  have resolving : gate resolve requests =
      ((declarations requests).mapM fun d => do return (⟨d.1, d.2, ← resolve d.2⟩ : Resolution)) >>=
        fun rs => pure (verdict rs) := rfl
  rw [resolving, one, each]
  simp [resolved]

theorem map_resolved {requests : List Request} {outcomes : List (Except ToolError (List LocalTool))}
    (count : outcomes.length = (declarations requests).length) :
    (resolved requests outcomes).map (fun r => (r.owner, r.spec)) = declarations requests ∧
      (resolved requests outcomes).map (·.outcome) = outcomes := by
  unfold resolved
  generalize declarations requests = ds at count ⊢
  induction ds generalizing outcomes with
  | nil =>
      obtain rfl := List.length_eq_zero_iff.mp count
      exact ⟨rfl, rfl⟩
  | cons d rest ih =>
      obtain ⟨outcome, later, rfl⟩ := List.exists_cons_of_length_eq_add_one count
      obtain ⟨declared, outcomes⟩ := ih (Nat.succ.inj count)
      exact ⟨congrArg (d :: ·) declared, congrArg (outcome :: ·) outcomes⟩

/-- The gate resolves each declaration once, in order. Whatever that comes to: it lets everything through
exactly when each declaration is resolved to tools that are all valid. Then each owner is handed out its own
tools and nothing else. Otherwise nobody gets anything, and each declaration that is not resolved and each
tool that is not valid is told, with its owner. -/
theorem gate_exact (resolve : ToolSpec → m (Except ToolError (List LocalTool))) (requests : List Request) :
    gate resolve requests =
        (fun outcomes => verdict (resolved requests outcomes)) <$>
          (declarations requests).mapM (fun d => resolve d.2) ∧
      Function.Injective Owner.text ∧
      ∀ outcomes, outcomes.length = (declarations requests).length →
        let rs := resolved requests outcomes
        rs.map (fun r => (r.owner, r.spec)) = declarations requests ∧ rs.map (·.outcome) = outcomes ∧
        ((∃ granted, verdict rs = .ok granted) ↔ ∀ r ∈ rs, r.Passes) ∧
        (∀ granted, verdict rs = .ok granted → HandedOut rs granted) ∧
        ∀ e, verdict rs = .error e → Refused rs e.failures := by
  refine ⟨gate_eq resolve requests, Owner.text_injective, ?_⟩
  intro outcomes count rs
  obtain ⟨declared, came⟩ := map_resolved count
  refine ⟨declared, came, ?_, fun granted passed => ?_, fun e refusal => ?_⟩
  · simp [verdict_ok_iff]
  · obtain ⟨_, rfl⟩ := verdict_ok_iff.mp passed
    exact handedOut rs
  · obtain ⟨some, rfl⟩ := verdict_error_iff.mp refusal
    exact refused some

end Gate

/-- A tool that answers with what it is asked, if it is told that it works. -/
def echo (name : String) (check : Except ToolError Unit) : LocalTool where
  name := name
  description := name
  validate := check
  invoke := .ok

/-- One native tool, and a server of two tools of which one cannot be reached. -/
def corner : Registry Id where
  native := fun name => if name = "search" then some fun _ => .ok (echo name (.ok ())) else none
  custom := fun _ => none
  servers := some fun _ => .ok [echo "read" (.ok ()), echo "write" (.error (.connectivity "refused"))]

/-- An agent and a task of one name, which share no tools. -/
def cornerRequests : List Request :=
  [⟨.agent "clerk", [.native "search" [], .native "find" []]⟩, ⟨.task "clerk", [.server "files" none]⟩]

theorem corner_refused :
    ∃ failures, gate (m := Id) corner.resolve cornerRequests = .error ⟨failures⟩ ∧
      failures.map ToolFailure.text =
        ["agent 'clerk' -> find: unknown native tool 'find' (local declaration)",
          "task 'clerk' -> write: refused"] := by
  let outcomes := (declarations cornerRequests).map fun d => corner.resolve d.2
  obtain ⟨opened, _, exact⟩ := gate_exact (m := Id) corner.resolve cornerRequests
  obtain ⟨_, _, passes, _, refuses⟩ := exact outcomes rfl
  cases decided : verdict (resolved cornerRequests outcomes) with
  | ok granted =>
      obtain ⟨tools, found, _⟩ := passes.mp ⟨granted, decided⟩ _ (List.mem_cons_of_mem _ List.mem_cons_self)
      cases found
  | error e =>
      refine ⟨e.failures, opened.trans decided, ?_⟩
      obtain ⟨first, later, listed, same, unresolved, invalid, order, _⟩ := (refuses e decided).told
      obtain ⟨find, _, ⟨_, lost, notFound⟩, none_else, rfl⟩ := List.forall₂_cons_left_iff.mp unresolved
      obtain ⟨write, _, ⟨_, wrong, notValid⟩, none_more, rfl⟩ := List.forall₂_cons_left_iff.mp invalid
      cases none_else
      cases none_more
      cases lost
      cases wrong
      obtain rfl := List.perm_singleton.mp order
      have localOne := notFound.isLocal.mpr ⟨_, rfl⟩
      have remoteOne : write.isLocal = false := by
        rw [← Bool.not_eq_true, notValid.isLocal]
        nofun
      rw [same]
      simp only [List.cons_append, List.nil_append, List.map_cons, List.map_nil, ToolFailure.text,
        notFound.owner, notFound.tool, notFound.reason, localOne, notValid.owner, notValid.tool,
        notValid.reason, remoteOne]
      rfl

end CrewFlow.Tool
