import Mathlib
import CrewFlow.Proofs.Flow.Typing
/-!
# Saved records

What the record of a state has under a key. The flat view is written in four parts: the ids, the fields, the
completion flags and the results, so a key that two of them have holds what the later one wrote. The step that
joins the results adds its output. What a walk saves is one record for each visit, in order.
-/
set_option autoImplicit false

namespace CrewFlow.Flow

open Execution (Snapshot)
open Json (Fields Value)
open Text (Inputs)

/-! ## The flat view -/

namespace State

def idFields (s : State) : Fields :=
  ("id", .str s.id) :: (s.workflowId.map fun w => ("workflow_id", .str w)).toList

def flagFields (s : State) : Fields := s.flags.map fun f => (f.1 ++ Spec.completedSuffix, .bool f.2)

/-- Of the parts that have a key, the one written last holds. -/
theorem get?_toFields (s : State) (key : String) :
    s.toFields.get? key =
      if key = "results" then some (.ofTexts s.results)
      else (s.flagFields.reverse.lookup key).or
        ((s.fields.reverse.lookup key).or (s.idFields.reverse.lookup key)) := by
  have parts : s.toFields = Fields.ofList (s.idFields ++ s.fields ++ s.flagFields ++
      [("results", .ofTexts s.results)]) := rfl
  rw [parts, Fields.get?_ofList, List.reverse_append, List.reverse_singleton, List.singleton_append,
    Fields.lookup_cons_eq, List.reverse_append, List.reverse_append, List.lookup_append, List.lookup_append]

theorem get?_toFields_results (s : State) : s.toFields.get? "results" = some (.ofTexts s.results) := by
  rw [get?_toFields, if_pos rfl]

end State

theorem flagKey_injective : Function.Injective fun step : String => step ++ Spec.completedSuffix := by
  intro a b same
  have letters := congrArg String.toList same
  simp only [String.toList_append] at letters
  exact String.toList_inj.mp (List.append_cancel_right letters)

theorem isReservedField_flagKey (step : String) :
    Spec.isReservedField (step ++ Spec.completedSuffix) = true := by
  have ends : Spec.completedSuffix.toList.isSuffixOf (step ++ Spec.completedSuffix).toList = true := by
    rw [List.isSuffixOf_iff_suffix, String.toList_append]
    exact List.suffix_append _ _
  rw [Spec.isReservedField, ends, Bool.or_true]

theorem flagKey_ne {step key : String} (other : Spec.completedSuffix.toList.isSuffixOf key.toList = false) :
    step ++ Spec.completedSuffix ≠ key := by
  rintro rfl
  rw [← Bool.not_eq_true, List.isSuffixOf_iff_suffix, String.toList_append] at other
  exact other (List.suffix_append _ _)

namespace State

theorem get?_toFields_flag {s : State} (distinct : (s.completed.map (·.1)).Nodup) {step : String} {done : Bool}
    (found : s.completed.lookup step = some done) :
    s.toFields.get? (step ++ Spec.completedSuffix) = some (.bool done) := by
  have sorted : s.flags.Perm s.completed := List.mergeSort_perm _ _
  have flag : s.flagFields.reverse.lookup (step ++ Spec.completedSuffix) = some (.bool done) := by
    apply Fields.lookup_of_mem
    · have keys : s.flagFields.map (·.1) = (s.flags.map (·.1)).map (· ++ Spec.completedSuffix) := by
        rw [flagFields, List.map_map, List.map_map]
        rfl
      rw [List.map_reverse, List.nodup_reverse, keys]
      exact ((sorted.map _).nodup_iff.mpr distinct).map flagKey_injective
    · have listed : (step, done) ∈ s.flags := sorted.mem_iff.mpr (Fields.mem_of_lookup found)
      exact List.mem_reverse.mpr (List.mem_map.mpr ⟨_, listed, rfl⟩)
  rw [get?_toFields, if_neg (flagKey_ne (by decide)), flag, Option.some_or]

theorem isReservedField_of_mem {s : State} {key : String}
    (member : key ∈ (s.idFields ++ s.flagFields).map (·.1)) : Spec.isReservedField key = true := by
  rw [List.map_append, List.mem_append] at member
  rcases member with id | flag
  · have ids : key ∈ ["id", "workflow_id"] := by
      rw [idFields, List.map_cons, List.mem_cons] at id
      rcases id with rfl | workflow
      · exact List.mem_cons_self
      · cases known : s.workflowId with
        | none => simp [known] at workflow
        | some w =>
            obtain rfl : key = "workflow_id" := by simpa [known] using workflow
            exact List.mem_cons_of_mem _ List.mem_cons_self
    have reserved : ∀ id ∈ ["id", "workflow_id"], Spec.isReservedField id = true := by decide +kernel
    exact reserved key ids
  · obtain ⟨entry, listed, rfl⟩ := List.mem_map.mp flag
    obtain ⟨f, _, rfl⟩ := List.mem_map.mp listed
    exact isReservedField_flagKey f.1

/-- Under a key that is not reserved, the flat view has what the fields have. -/
theorem get?_toFields_of_free (s : State) {key : String} (free : Spec.isReservedField key = false) :
    s.toFields.get? key = s.fields.reverse.lookup key := by
  have results : key ≠ "results" := by
    rintro rfl
    exact absurd free (by decide +kernel)
  have foreign : ∀ part : Fields, part ⊆ s.idFields ++ s.flagFields → part.reverse.lookup key = none := by
    intro part within
    rw [List.lookup_eq_none_iff]
    intro entry member
    have reserved := isReservedField_of_mem (List.mem_map_of_mem (within (List.mem_reverse.mp member)))
    have apart : key ≠ entry.1 := by
      rintro rfl
      rw [reserved] at free
      cases free
    simpa using apart
  rw [get?_toFields, if_neg results, foreign _ (List.subset_append_right _ _),
    foreign _ (List.subset_append_left _ _), Option.none_or, Option.or_none]

end State

theorem get?_savedForm (s : Step) (state : State) (output key : String) :
    (savedForm s state output).get? key =
      if s.action = .finalize ∧ key = "output" then some (.str output) else state.toFields.get? key := by
  unfold savedForm
  split
  · next action =>
      rw [Value.get?, Value.fields?, Option.bind_some, Fields.get?_insert]
      simp only [action, true_and]
  · next other =>
      rw [State.toJson, Value.get?, Value.fields?, Option.bind_some, if_neg (fun closing => other closing.1)]

/-! ## What a walk saves -/

def Visit.snapshot (v : Visit) : Snapshot :=
  ⟨v.state.id, v.step.name, savedForm v.step v.state (resultSeparator.intercalate v.state.results)⟩

section Walks
variable {σ : Type} {runner : Runner σ} {crews : List Crew} {inputs : Inputs} {g : Graph}

theorem act_finalize {s : Step} (action : s.action = .finalize) {state next : State} {world after : σ}
    {produced : Option String}
    (acted : act runner crews inputs s state world = (.ok (next, produced), after)) :
    next = state ∧ produced = some (resultSeparator.intercalate state.results) := by
  cases acted_of_act runner crews inputs acted with
  | joined => exact ⟨rfl, rfl⟩
  | idle other => simp [action] at other
  | kept other found ran stored => simp [action] at other

theorem Round.saved_eq {w next : Walk σ} {visit : Option Visit}
    (round : Round runner crews inputs g w visit next) :
    next.saved = w.saved ++ visit.toList.map Visit.snapshot := by
  cases round with
  | leaveOut waiting done => simp
  | @visit name queue s state produced world waiting fresh found acted =>
      have same : savedForm s (state.mark s.name) (produced.getD w.output) =
          savedForm s (state.mark s.name) (resultSeparator.intercalate (state.mark s.name).results) := by
        cases action : s.action with
        | finalize =>
            obtain ⟨rfl, rfl⟩ := act_finalize action acted
            rfl
        | runCrew crew => simp only [savedForm, action]
        | noop => simp only [savedForm, action]
      rw [Walk.completed, same]
      rfl

/-- Every visit saves one record, and nothing else is saved. -/
theorem Passage.saved_eq {w last : Walk σ} {visits : List Visit}
    (passage : Passage runner crews inputs g w visits last) :
    last.saved = w.saved ++ visits.map Visit.snapshot := by
  induction passage with
  | here => simp
  | further earlier round ih => rw [round.saved_eq, ih, List.map_append, List.append_assoc]

theorem Passage.mem_steps {w last : Walk σ} {visits : List Visit}
    (passage : Passage runner crews inputs g w visits last) : ∀ v ∈ visits, v.step ∈ g.steps := by
  induction passage with
  | here => simp
  | further earlier round ih =>
      intro v member
      rcases List.mem_append.mp member with before | now
      · exact ih v before
      · cases round with
        | leaveOut => simp at now
        | visit waiting fresh found acted =>
            obtain rfl := List.mem_singleton.mp now
            exact mem_steps_of_step? found

theorem keys_of_act {names : List String} {s : Step} {state next : State} {world after : σ}
    {produced : Option String} (output : ∀ field, s.output = some field → field ∈ names)
    (standing : state.fields.map (·.1) = names)
    (acted : act runner crews inputs s state world = (.ok (next, produced), after)) :
    next.fields.map (·.1) = names := by
  rcases act_ok acted with ⟨_, rfl⟩ | ⟨_, raw, _, _, stored⟩
  · exact standing
  · rcases storeResult_ok stored with ⟨_, rfl⟩ | ⟨field, v, named, rfl, _⟩
    · exact standing
    · have known : field ∈ (state.pushResult raw).fields.map (·.1) := by
        rw [State.pushResult, standing]
        exact output field named
      rw [State.put, Fields.keys_insert, if_pos known]
      exact standing

theorem Passage.keeps_keys {names : List String}
    (outputs : ∀ s ∈ g.steps, ∀ field, s.output = some field → field ∈ names) {w last : Walk σ}
    (first : w.state.fields.map (·.1) = names) {visits : List Visit}
    (passage : Passage runner crews inputs g w visits last) :
    (∀ v ∈ visits, v.state.fields.map (·.1) = names) ∧ last.state.fields.map (·.1) = names := by
  refine passage.preserves (fun visits w => (∀ v ∈ visits, v.state.fields.map (·.1) = names) ∧
    w.state.fields.map (·.1) = names) ⟨by simp, first⟩ ?_
  intro before w visit next ⟨behind, standing⟩ round
  cases round with
  | leaveOut waiting done => exact ⟨by simpa using behind, standing⟩
  | @visit name queue s state produced world waiting fresh found acted =>
      have kept := keys_of_act (outputs s (mem_steps_of_step? found)) standing acted
      refine ⟨?_, kept⟩
      intro v member
      rcases List.mem_append.mp member with earlier | now
      · exact behind v earlier
      · obtain rfl : v = ⟨s, state.mark s.name⟩ := by simpa using now
        exact kept

theorem Passage.keys_eq {names : List String}
    (outputs : ∀ s ∈ g.steps, ∀ field, s.output = some field → field ∈ names) {w last : Walk σ}
    (first : w.state.fields.map (·.1) = names) {visits : List Visit}
    (passage : Passage runner crews inputs g w visits last) :
    ∀ v ∈ visits, v.state.fields.map (·.1) = names :=
  (passage.keeps_keys outputs first).1

end Walks

end CrewFlow.Flow
