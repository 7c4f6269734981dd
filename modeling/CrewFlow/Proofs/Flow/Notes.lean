import Mathlib
import CrewFlow.Proofs.Flow.Record
import CrewFlow.Proofs.Flow.Worlds
/-!
# What crews are given

A walk in a world that takes notes: of every kickoff the crew, the inputs that it was given and its answer.
It goes the way of the walk without notes, which tells what crews are given there. Each of them is given the
inputs of the walk overlaid by the fields as they stand, and each field holds what the notes say was yielded
for it last.
-/
set_option autoImplicit false

namespace CrewFlow.Flow

open Json (Fields Value)
open Spec (FieldSpec)
open Text (Inputs)

/-! ## Overlays -/

theorem get?_put (inputs : Inputs) (name text other : String) :
    (inputs.put name text).get? other = if other = name then some text else inputs.get? other := by
  rw [Inputs.put, Inputs.get?, Fields.lookup_cons_eq, Fields.lookup_filter]
  by_cases same : other = name <;> simp [same, Inputs.get?]

theorem get?_eq_none {fields : Fields} {name : String} (absent : name ∉ fields.map (·.1)) :
    fields.get? name = none := by
  rw [Fields.get?, List.lookup_eq_none_iff]
  intro entry member
  have apart : name ≠ entry.1 := fun same => absent (same ▸ List.mem_map_of_mem member)
  simpa using apart

/-- Every field shows in an overlay, and hides the input of its name. -/
theorem get?_overlay {fields : Fields} (distinct : (fields.map (·.1)).Nodup) (inputs : Inputs) (name : String) :
    (overlay inputs fields).get? name = ((fields.get? name).map Value.plainText).or (inputs.get? name) := by
  induction fields generalizing inputs with
  | nil => rfl
  | cons f rest ih =>
      rw [List.map_cons, List.nodup_cons] at distinct
      have later : (overlay inputs (f :: rest)).get? name =
          ((Fields.get? rest name).map Value.plainText).or ((inputs.put f.1 f.2.plainText).get? name) :=
        ih distinct.2 _
      rw [later, get?_put, Fields.get?, Fields.get?, Fields.lookup_cons_eq]
      by_cases here : name = f.1
      · have absent : Fields.get? rest name = none := get?_eq_none (here ▸ distinct.1)
        rw [Fields.get?] at absent
        simp [here ▸ absent, here]
      · simp [here]

/-! ## Notes -/

/-- One kickoff: the crew, what it was given, and what it answered. -/
structure Note where
  crew : Crew
  given : Inputs
  answer : Except ExecutionError CrewOutput

/-- A way to run crews that takes a note of every kickoff. -/
def noting {σ : Type} (runner : Runner σ) : Runner (σ × List Note) := fun crew given world =>
  let (answer, after) := runner crew given world.1
  (answer, after, world.2 ++ [⟨crew, given, answer⟩])

/-- A walk with the notes that were taken on it. -/
def Walk.noted {σ : Type} (w : Walk σ) (notes : List Note) : Walk (σ × List Note) :=
  { w with world := (w.world, notes) }

/-- A step that was done, and the note of its kickoff if it runs a crew. -/
structure Done extends Visit where
  note? : Option Note

/-- What a step that was done stored, and in which field: the text that its crew answered, in its output. -/
def Done.noted? (d : Done) : Option (String × String) := do
  let field ← d.step.output
  let note ← d.note?
  let output ← note.answer.toOption
  return (field, output.raw)

/-- The text that was stored last in a field. -/
def lastText? (done : List Done) (field : String) : Option String :=
  (done.reverse.filterMap Done.noted?).lookup field

/-- The value of a field after some steps: that of the text that was stored in it last, else its initial one. -/
def valueAfter (f : FieldSpec) (done : List Done) : Except CoerceError Value :=
  match lastText? done f.name with
  | some raw => coerce f.type raw
  | none => .ok f.initial

section Accounts
variable (declared : List FieldSpec) (crews : List Crew) (inputs : Inputs)

/-- The kickoff of a step: of its crew, with the texts of all fields as the steps before have left them, and
with the inputs of other names. -/
structure KickedOff (before : List Done) (s : Step) (note : Note) : Prop where
  crew : ∃ name, s.action = .runCrew name ∧ crewOf? crews name = some note.crew
  fields : ∀ f ∈ declared, ∃ v, valueAfter f before = .ok v ∧ note.given.get? f.name = some v.plainText
  others : ∀ name, name ∉ declared.map (·.name) → note.given.get? name = inputs.get? name

/-- The steps that were done up to a point of a walk account for the fields and for the notes there. -/
structure Accounts {σ : Type} (done : List Done) (w : Walk σ) (notes : List Note) : Prop where
  steps : w.executed = done.map fun d => d.step.name
  notes : notes = done.filterMap (·.note?)
  fields : ∀ f ∈ declared, ∃ v, valueAfter f done = .ok v ∧ w.state.fields.get? f.name = some v
  names : w.state.fields.map (·.1) = declared.map (·.name)
  kickoffs : ∀ k d, done[k]? = some d →
    (d.note?.isSome ↔ ∃ name, d.step.action = .runCrew name) ∧
      ∀ note ∈ d.note?, KickedOff declared crews inputs (done.take k) d.step note ∧
        ∃ output, note.answer = .ok output

end Accounts

/-! ## Steps -/

/-- The note that a step takes, if it takes one: of its crew, with the overlaid inputs, and where the step
does not fail with an answer that ends up last in its results. -/
structure Takes (crews : List Crew) (inputs : Inputs) (s : Step) (state : State)
    (outcome : Except ExecutionError (State × Option String)) (note? : Option Note) : Prop where
  crew : ∀ note ∈ note?, ∃ name, s.action = .runCrew name ∧ crewOf? crews name = some note.crew
  given : ∀ note ∈ note?, note.given = overlay inputs state.fields
  completed : ∀ next produced, outcome = .ok (next, produced) →
    (note?.isSome ↔ ∃ name, s.action = .runCrew name) ∧
      ∀ note ∈ note?, ∃ output, note.answer = .ok output ∧ next.results.getLast? = some output.raw

section Walks
variable {σ : Type} {runner : Runner σ} {crews : List Crew} {inputs : Inputs} {g : Graph}

theorem getLast?_of_storeResult {s : Step} {state next : State} {raw : String}
    (stored : storeResult s state raw = .ok next) : next.results.getLast? = some raw := by
  rcases storeResult_ok stored with ⟨_, rfl⟩ | ⟨field, v, _, rfl, _⟩ <;> simp [State.put, State.pushResult]

theorem act_noting {s : Step} {state : State} {world after : σ}
    {outcome : Except ExecutionError (State × Option String)}
    (acted : act runner crews inputs s state world = (outcome, after)) (notes : List Note) :
    ∃ note?, act (noting runner) crews inputs s state (world, notes) = (outcome, after, notes ++ note?.toList) ∧
      Takes crews inputs s state outcome note? := by
  cases acted_of_act runner crews inputs acted with
  | idle action => exact ⟨none, by simp [act, action], by simp, by simp, by simp [action]⟩
  | joined action => exact ⟨none, by simp [act, action], by simp, by simp, by simp [action]⟩
  | crewless action absent => exact ⟨none, by simp [act, action, absent], by simp, by simp, by rintro _ _ ⟨⟩⟩
  | @failed name crew e after action found ran =>
      refine ⟨some ⟨crew, overlay inputs state.fields, .error e⟩, ?_, ?_, ?_, by rintro _ _ ⟨⟩⟩
      · simp [act, action, found, noting, ran]
      · rintro note ⟨rfl⟩
        exact ⟨name, action, found⟩
      · rintro note ⟨rfl⟩
        rfl
  | @kept name crew result after next action found ran stored =>
      refine ⟨some ⟨crew, overlay inputs state.fields, .ok result⟩, ?_, ?_, ?_, ?_⟩
      · simp [act, action, found, noting, ran, stored, Except.map]
      · rintro note ⟨rfl⟩
        exact ⟨name, action, found⟩
      · rintro note ⟨rfl⟩
        rfl
      · rintro _ _ ⟨rfl⟩
        refine ⟨by simp [action], ?_⟩
        rintro note ⟨rfl⟩
        exact ⟨result, rfl, getLast?_of_storeResult stored⟩
  | @unkept name crew result after e action found ran unstored =>
      refine ⟨some ⟨crew, overlay inputs state.fields, .ok result⟩, ?_, ?_, ?_, by rintro _ _ ⟨⟩⟩
      · simp [act, action, found, noting, ran, unstored, Except.map]
      · rintro note ⟨rfl⟩
        exact ⟨name, action, found⟩
      · rintro note ⟨rfl⟩
        rfl

theorem stored?_eq_noted? {s : Step} {state next : State} {produced : Option String} {note? : Option Note}
    (takes : Takes crews inputs s state (.ok (next, produced)) note?) :
    (⟨s, next.mark s.name⟩ : Visit).stored? = Done.noted? ⟨⟨s, next.mark s.name⟩, note?⟩ := by
  obtain ⟨runs, answers⟩ := takes.completed next produced rfl
  cases note? with
  | none =>
      have idle : ∀ name, s.action ≠ .runCrew name := by simpa using runs
      have nothing : (⟨s, next.mark s.name⟩ : Visit).stored? = none := by
        unfold Visit.stored?
        split
        · next action _ _ => exact absurd action (idle _)
        · rfl
      rw [nothing]
      cases output : s.output <;> simp [Done.noted?, output]
  | some note =>
      obtain ⟨name, action⟩ := runs.mp rfl
      obtain ⟨output, answer, last⟩ := answers note rfl
      cases field : s.output <;>
        simp [Visit.stored?, Done.noted?, State.mark, action, field, answer, last, Except.toOption]

theorem lastText?_eq {done : List Done} (same : ∀ d ∈ done, d.toVisit.stored? = d.noted?) (field : String) :
    lastText? done field = lastStored? (done.map Done.toVisit) field := by
  rw [lastText?, lastStored?, ← List.map_reverse, List.filterMap_map]
  congr 1
  refine List.filterMap_congr fun d member => ?_
  exact (same d (List.mem_reverse.mp member)).symm

variable {declared : List FieldSpec}

theorem valueAfter_of_filled {done : List Done} {state : State}
    (same : ∀ d ∈ done, d.toVisit.stored? = d.noted?)
    (filled : Filled declared (done.map Done.toVisit) state) :
    ∀ f ∈ declared, ∃ v, valueAfter f done = .ok v ∧ state.fields.get? f.name = some v := by
  intro f member
  obtain ⟨v, found, holds⟩ := filled.values f member
  refine ⟨v, ?_, found⟩
  rw [valueAfter, lastText?_eq same]
  cases holds with
  | initial untouched start => rw [untouched, start]
  | stored last converted =>
      rw [last]
      exact converted

theorem kickedOff_of_takes {done : List Done} {s : Step} {state : State} {note : Note}
    {outcome : Except ExecutionError (State × Option String)} (distinct : (declared.map (·.name)).Nodup)
    (values : ∀ f ∈ declared, ∃ v, valueAfter f done = .ok v ∧ state.fields.get? f.name = some v)
    (names : state.fields.map (·.1) = declared.map (·.name))
    (takes : Takes crews inputs s state outcome (some note)) : KickedOff declared crews inputs done s note where
  crew := takes.crew note rfl
  fields := by
    intro f member
    obtain ⟨v, after, found⟩ := values f member
    refine ⟨v, after, ?_⟩
    rw [takes.given note rfl, get?_overlay (names ▸ distinct), found]
    rfl
  others := by
    intro name other
    have absent : state.fields.get? name = none := by
      rw [← names] at other
      exact get?_eq_none other
    rw [takes.given note rfl, get?_overlay (names ▸ distinct), absent]
    rfl

theorem kickoffs_append {done : List Done} {w : Walk σ} {notes : List Note}
    (accounts : Accounts declared crews inputs done w notes) {d : Done}
    (runs : d.note?.isSome ↔ ∃ name, d.step.action = .runCrew name)
    (kicked : ∀ note ∈ d.note?, KickedOff declared crews inputs done d.step note ∧
      ∃ output, note.answer = .ok output) :
    ∀ k d', (done ++ [d])[k]? = some d' →
      (d'.note?.isSome ↔ ∃ name, d'.step.action = .runCrew name) ∧
        ∀ note ∈ d'.note?, KickedOff declared crews inputs ((done ++ [d]).take k) d'.step note ∧
          ∃ output, note.answer = .ok output := by
  intro k d' place
  rcases Nat.lt_trichotomy k done.length with inside | rfl | beyond
  · rw [List.getElem?_append_left inside] at place
    rw [List.take_append_of_le_length inside.le]
    exact accounts.kickoffs k d' place
  · rw [List.getElem?_concat_length] at place
    cases place
    rw [List.take_left]
    exact ⟨runs, kicked⟩
  · rw [List.getElem?_eq_none (by simp; omega)] at place
    cases place

section Points
variable {id : String} {steps : List String} {workflowId : Option String} {world : σ}

theorem keys_start (distinct : (declared.map (·.name)).Nodup) :
    (State.start id declared steps workflowId).fields.map (·.1) = declared.map (·.name) := by
  have names : (declared.map fun f => (f.name, f.initial)).map (·.1) = declared.map (·.name) := by
    rw [List.map_map]
    rfl
  exact (Fields.keys_ofList (names ▸ distinct)).trans names

/-- Wherever a walk passes, it passes with notes as well, and the steps that were done account for the fields
and for the notes. -/
theorem Passage.exists_accounts (distinct : (declared.map (·.name)).Nodup)
    (outputs : ∀ s ∈ g.steps, ∀ field, s.output = some field → field ∈ declared.map (·.name))
    {visits : List Visit} {last : Walk σ}
    (passage : Passage runner crews inputs g (.start g (.start id declared steps workflowId) world)
      visits last) :
    ∃ done notes, done.map Done.toVisit = visits ∧ (∀ d ∈ done, d.toVisit.stored? = d.noted?) ∧
      Passage (noting runner) crews inputs g
        ((Walk.start g (.start id declared steps workflowId) world).noted []) visits (last.noted notes) ∧
      Accounts declared crews inputs done last notes := by
  induction passage with
  | here =>
      have values := valueAfter_of_filled (List.forall_mem_nil fun d : Done => d.toVisit.stored? = d.noted?)
        (filled_start distinct id steps workflowId)
      exact ⟨[], [], rfl, by simp, .here, rfl, rfl, values, keys_start distinct, by simp⟩
  | @further visits last next visit earlier round ih =>
      have names := ((earlier.further round).keeps_keys outputs (keys_start distinct)).2
      have filled := (earlier.further round).filled distinct
      obtain ⟨done, notes, rfl, linked, noted, accounts⟩ := ih
      cases round with
      | @leaveOut name queue waiting earlierDone =>
          exact ⟨done, notes, by simp, linked, noted.further (.leaveOut waiting earlierDone),
            accounts.steps, accounts.notes, accounts.fields, accounts.names, accounts.kickoffs⟩
      | @visit name queue s state produced world waiting fresh found acted =>
          obtain ⟨note?, there, takes⟩ := act_noting acted notes
          have completed := takes.completed state produced rfl
          let d : Done := ⟨⟨s, state.mark s.name⟩, note?⟩
          have linked : ∀ d' ∈ done ++ [d], d'.toVisit.stored? = d'.noted? :=
            List.forall_mem_append.mpr ⟨linked, List.forall_mem_singleton.mpr (stored?_eq_noted? takes)⟩
          have visits : (done ++ [d]).map Done.toVisit = done.map Done.toVisit ++ [⟨s, state.mark s.name⟩] := by
            simp [d]
          refine ⟨done ++ [d], notes ++ note?.toList, visits, linked,
            noted.further (.visit waiting fresh found there), ?_, ?_, ?_, names, ?_⟩
          · simp [Walk.completed, accounts.steps, d]
          · rw [List.filterMap_append, ← accounts.notes]
            cases note? <;> rfl
          · exact valueAfter_of_filled linked (visits ▸ filled)
          · refine kickoffs_append accounts completed.1 fun note taken => ⟨?_, ?_⟩
            · cases taken
              exact kickedOff_of_takes distinct accounts.fields accounts.names takes
            · obtain ⟨output, answer, _⟩ := completed.2 note taken
              exact ⟨output, answer⟩

end Points

/-! ## Ends -/

/-- Where a walk halts, it halts with notes as well. A step that fails may have kicked off its crew. -/
theorem Halt.exists_note {done : List Done} {last : Walk σ} {notes : List Note}
    {ending : Walk σ × Option ExecutionError} (distinct : (declared.map (·.name)).Nodup)
    (accounts : Accounts declared crews inputs done last notes) (halt : Halt runner crews inputs g last ending) :
    ∃ note? : Option Note, Halt (noting runner) crews inputs g (last.noted notes)
        (ending.1.noted (notes ++ note?.toList), ending.2) ∧
      ending.1.state = last.state ∧
      ∀ note ∈ note?, ∃ name s queue, last.queue = name :: queue ∧ g.step? name = some s ∧
        KickedOff declared crews inputs done s note := by
  cases halt with
  | done nothing => exact ⟨none, by simpa using .done nothing, rfl, by simp⟩
  | missing waiting fresh absent => exact ⟨none, by simpa using .missing waiting fresh absent, rfl, by simp⟩
  | @failed name queue s e world waiting fresh found acted =>
      obtain ⟨note?, there, takes⟩ := act_noting acted notes
      refine ⟨note?, .failed waiting fresh found there, rfl, fun note taken => ?_⟩
      cases taken
      exact ⟨name, s, queue, waiting, found,
        kickedOff_of_takes distinct accounts.fields accounts.names takes⟩

end Walks

end CrewFlow.Flow
