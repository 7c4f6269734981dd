import Mathlib
import CrewFlow.Proofs.Flow.Passage
import CrewFlow.Proofs.Json.Fields
/-!
# Types of state fields

Wherever a walk passes, a declared field holds what it held at the start, or what the text that was stored
in it last is converted to. A conversion has the type it is for, except that a decimal may be read from a
text whose number JSON cannot hold; the field then holds null.
-/
set_option autoImplicit false

namespace CrewFlow.Flow

open Json (Fields Value)
open Spec (FieldSpec FieldType)
open Text (Inputs)

/-! ## Conversions -/

/-- A text that reads as an infinity or as NaN. -/
def NonFinite (raw : String) : Prop :=
  ∃ x, readDecimal? (Text.trim raw) = some x ∧ x.isFinite = false

theorem accepts_decimal_ofFloat (x : Float) :
    FieldType.accepts .decimal (.ofFloat x) = x.isFinite := by
  unfold Value.ofFloat
  cases x.isFinite <;> rfl

/-- A conversion has its type unless it is that of a number which JSON cannot hold. -/
theorem accepts_eq_false_iff {type : FieldType} {raw : String} {v : Value}
    (converted : coerce type raw = .ok v) :
    type.accepts v = false ↔ type = .decimal ∧ NonFinite raw := by
  cases type with
  | text =>
      cases converted
      simp [FieldType.accepts]
  | integer =>
      simp only [coerce] at converted
      split at converted
      · cases converted
        simp [FieldType.accepts, Value.int]
      · cases converted
  | decimal =>
      simp only [coerce] at converted
      split at converted
      · next x read =>
          cases converted
          rw [accepts_decimal_ofFloat]
          simp [NonFinite, read]
      · cases converted
  | boolean =>
      simp only [coerce] at converted
      split_ifs at converted <;> cases converted <;> simp [FieldType.accepts]
  | list =>
      simp only [coerce] at converted
      split at converted <;> cases converted <;> simp [FieldType.accepts]
  | map =>
      simp only [coerce] at converted
      split at converted
      · cases converted
        simp [FieldType.accepts]
      · cases converted

/-! ## What a step stores -/

theorem State.setText_ok {state next : State} {field raw : String}
    (stored : state.setText field raw = .ok next) :
    ∃ v, next = state.put field v ∧
      ∀ type, state.types.lookup field = some type → coerce type raw = .ok v := by
  unfold State.setText at stored
  split at stored
  · next type typed =>
      cases converted : coerce type raw with
      | error e => simp [converted, bind, Except.bind] at stored
      | ok v =>
          simp only [converted, bind, Except.bind, pure, Except.pure] at stored
          cases stored
          refine ⟨v, rfl, ?_⟩
          intro other same
          rw [typed] at same
          cases same
          exact converted
  · next untyped =>
      cases stored
      refine ⟨_, rfl, ?_⟩
      intro type typed
      rw [untyped] at typed
      cases typed

theorem storeResult_ok {s : Step} {state next : State} {raw : String}
    (stored : storeResult s state raw = .ok next) :
    (s.output = none ∧ next = state.pushResult raw) ∨
      ∃ field v, s.output = some field ∧ next = (state.pushResult raw).put field v ∧
        ∀ type, state.types.lookup field = some type → coerce type raw = .ok v := by
  simp only [storeResult] at stored
  split at stored
  · next silent =>
      cases stored
      exact Or.inl ⟨silent, rfl⟩
  · next field named =>
      split at stored
      · next after set =>
          cases stored
          obtain ⟨v, same, converted⟩ := State.setText_ok set
          exact Or.inr ⟨field, v, named, same, converted⟩
      · cases stored

/-- What a step does that does not fail: it runs no crew and leaves the state as it is, or it runs one and
stores what that yields. -/
theorem act_ok {σ : Type} {runner : Runner σ} {crews : List Crew} {inputs : Inputs} {s : Step}
    {state next : State} {world after : σ} {produced : Option String}
    (acted : act runner crews inputs s state world = (.ok (next, produced), after)) :
    ((∀ name, s.action ≠ .runCrew name) ∧ next = state) ∨
      ∃ name raw, s.action = .runCrew name ∧ produced = some raw ∧
        storeResult s state raw = .ok next := by
  cases acted_of_act runner crews inputs acted with
  | idle action => exact Or.inl ⟨by simp [action], rfl⟩
  | joined action => exact Or.inl ⟨by simp [action], rfl⟩
  | kept action found ran stored => exact Or.inr ⟨_, _, action, rfl, stored⟩

/-- The field in which a visit stored a text, and the text: the last result of a step that runs a crew. -/
def Visit.stored? (v : Visit) : Option (String × String) :=
  match v.step.action, v.step.output, v.state.results.getLast? with
  | .runCrew _, some field, some raw => some (field, raw)
  | _, _, _ => none

/-- The text that some visits stored last in a field. -/
def lastStored? (visits : List Visit) (field : String) : Option String :=
  (visits.reverse.filterMap Visit.stored?).lookup field

theorem lastStored?_append (visits : List Visit) (v : Visit) (field : String) :
    lastStored? (visits ++ [v]) field =
      match v.stored? with
      | some (name, raw) => if field = name then some raw else lastStored? visits field
      | none => lastStored? visits field := by
  rw [lastStored?, List.reverse_append, List.reverse_singleton, List.singleton_append,
    List.filterMap_cons]
  cases v.stored? with
  | none => rfl
  | some entry => exact Fields.lookup_cons_eq entry _ field

/-! ## Declared fields -/

/-- What a field holds after some visits. -/
inductive Holds (f : FieldSpec) (visits : List Visit) (v : Value) : Prop where
  | initial (untouched : lastStored? visits f.name = none) (same : v = f.initial)
  | stored {raw : String} (last : lastStored? visits f.name = some raw)
      (converted : coerce f.type raw = .ok v)

/-- After some visits, the fields have their types and hold what they should. -/
structure Filled (declared : List FieldSpec) (visits : List Visit) (state : State) : Prop where
  types : ∀ f ∈ declared, state.types.lookup f.name = some f.type
  values : ∀ f ∈ declared, ∃ v, state.fields.get? f.name = some v ∧ Holds f visits v

section Fillings
variable {declared : List FieldSpec}

theorem lookup_declared {α : Type} (g : FieldSpec → α) (distinct : (declared.map (·.name)).Nodup)
    {f : FieldSpec} (member : f ∈ declared) :
    (declared.reverse.map fun f => (f.name, g f)).lookup f.name = some (g f) := by
  apply Fields.lookup_of_mem
  · rw [List.map_map, List.map_reverse]
    exact List.nodup_reverse.mpr distinct
  · exact List.mem_map.mpr ⟨f, List.mem_reverse.mpr member, rfl⟩

theorem filled_start (distinct : (declared.map (·.name)).Nodup) (id : String) (steps : List String)
    (workflowId : Option String) : Filled declared [] (.start id declared steps workflowId) where
  types := fun f member => lookup_declared FieldSpec.type distinct member
  values := by
    intro f member
    refine ⟨f.initial, ?_, .initial rfl rfl⟩
    rw [State.start, Fields.get?_ofList, ← List.map_reverse]
    exact lookup_declared FieldSpec.initial distinct member

theorem Filled.silent {visits : List Visit} {state : State} (filled : Filled declared visits state)
    {v : Visit} (nothing : v.stored? = none) : Filled declared (visits ++ [v]) state where
  types := filled.types
  values := by
    intro f member
    obtain ⟨held, found, holds⟩ := filled.values f member
    have same : lastStored? (visits ++ [v]) f.name = lastStored? visits f.name := by
      rw [lastStored?_append, nothing]
    refine ⟨held, found, ?_⟩
    cases holds with
    | initial untouched start => exact .initial (same.trans untouched) start
    | stored last converted => exact .stored (same.trans last) converted

theorem Filled.put {visits : List Visit} {state : State} (filled : Filled declared visits state)
    {v : Visit} {field raw : String} (written : v.stored? = some (field, raw)) {value : Value}
    (converted : ∀ type, state.types.lookup field = some type → coerce type raw = .ok value) :
    Filled declared (visits ++ [v]) (state.put field value) where
  types := filled.types
  values := by
    intro f member
    have last : lastStored? (visits ++ [v]) f.name =
        if f.name = field then some raw else lastStored? visits f.name := by
      rw [lastStored?_append, written]
    rw [State.put, Fields.get?_insert]
    by_cases here : f.name = field
    · rw [if_pos here] at last ⊢
      exact ⟨value, rfl, .stored last (converted f.type (here ▸ filled.types f member))⟩
    · rw [if_neg here] at last ⊢
      obtain ⟨held, found, holds⟩ := filled.values f member
      refine ⟨held, found, ?_⟩
      cases holds with
      | initial untouched start => exact .initial (last.trans untouched) start
      | stored before kept => exact .stored (last.trans before) kept

theorem Filled.congr {visits : List Visit} {state other : State} (filled : Filled declared visits state)
    (types : other.types = state.types) (fields : other.fields = state.fields) :
    Filled declared visits other where
  types := by
    rw [types]
    exact filled.types
  values := by
    rw [fields]
    exact filled.values

end Fillings

section Walks
variable {σ : Type} {runner : Runner σ} {crews : List Crew} {inputs : Inputs} {g : Graph}
  {declared : List FieldSpec}

theorem filled_round (visits : List Visit) (w : Walk σ) (visit : Option Visit) (next : Walk σ)
    (filled : Filled declared visits w.state) (round : Round runner crews inputs g w visit next) :
    Filled declared (visits ++ visit.toList) next.state := by
  cases round with
  | leaveOut waiting done => simpa using filled
  | @visit name queue s state produced world waiting fresh found acted =>
      rcases act_ok acted with ⟨idle, rfl⟩ | ⟨name, raw, action, _, stored⟩
      · have nothing : (⟨s, w.state.mark s.name⟩ : Visit).stored? = none := by
          unfold Visit.stored?
          split
          · next action _ _ => exact absurd action (idle _)
          · rfl
        exact (filled.silent nothing).congr rfl rfl
      · rcases storeResult_ok stored with ⟨silent, rfl⟩ | ⟨field, v, output, rfl, converted⟩
        · have nothing : (⟨s, (w.state.pushResult raw).mark s.name⟩ : Visit).stored? = none := by
            simp [Visit.stored?, silent]
          exact (filled.silent nothing).congr rfl rfl
        · have written : (⟨s, ((w.state.pushResult raw).put field v).mark s.name⟩ : Visit).stored? =
              some (field, raw) := by
            simp [Visit.stored?, action, output, State.put, State.pushResult, State.mark]
          exact (filled.put written converted).congr rfl rfl

/-- Wherever a walk passes, every declared field holds what it should. -/
theorem Passage.filled (distinct : (declared.map (·.name)).Nodup) {id : String} {steps : List String}
    {workflowId : Option String} {world : σ} {visits : List Visit} {last : Walk σ}
    (passage : Passage runner crews inputs g (.start g (.start id declared steps workflowId) world)
      visits last) : Filled declared visits last.state :=
  passage.preserves (fun visits w => Filled declared visits w.state)
    (filled_start distinct id steps workflowId) filled_round

end Walks

/-- A field whose default has its type holds a value of its type, unless it is a decimal in which a text
was stored last whose number JSON cannot hold. -/
theorem Holds.accepts_eq_false_iff {f : FieldSpec} {visits : List Visit} {v : Value}
    (default : ∀ d ∈ f.default?, f.type.accepts d = true) (holds : Holds f visits v) :
    f.type.accepts v = false ↔
      f.type = .decimal ∧ ∃ raw, lastStored? visits f.name = some raw ∧ NonFinite raw := by
  cases holds with
  | initial untouched same =>
      have accepted : f.type.accepts v = true := by
        rw [same, FieldSpec.initial]
        cases given : f.default? with
        | none => exact FieldType.accepts_zero f.type
        | some d => exact default d given
      simp [accepted, untouched]
  | stored last converted =>
      rw [Flow.accepts_eq_false_iff converted]
      simp [last]

end CrewFlow.Flow
