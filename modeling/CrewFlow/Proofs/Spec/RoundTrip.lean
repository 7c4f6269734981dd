import Mathlib
import CrewFlow.Spec.JsonForm
import CrewFlow.Proofs.Json.Text
import CrewFlow.Proofs.Spec.Complete
/-!
# There and back

The JSON form of a workflow, read back, is the workflow. Each part has the law of its own, from the words
and the tools up to the whole. Two kinds of numbers have no place in JSON or are out of the reader's range; a
workflow that was validated has none, because the document it comes from has none. So its form is a value of a
document again, which has a text.
-/
set_option autoImplicit false

namespace CrewFlow.Json

/-! ## Reading what was written -/

namespace Decode

section Laws
variable {α : Type} {fs : Fields} {name : String} {v : Value} {decode : Value → Decoded α} {a : α}

theorem exists_of_bind {β : Type} {x : Decoded α} {next : α → Decoded β} {b : β}
    (read : (x >>= next) = .ok b) : ∃ a, x = .ok a ∧ next a = .ok b := by
  cases x with
  | error fault => cases read
  | ok a => exact ⟨a, rfl, read⟩

theorem defaulted_of_get? {other : α} (found : fs.get? name = some v) (read : decode v = .ok a) :
    defaulted fs name decode other = .ok a := by
  rw [defaulted, found]
  exact read

theorem items_map {encode : α → Value} {xs : List α} (each : ∀ x ∈ xs, decode (encode x) = .ok x) :
    items decode (.arr (xs.map encode)) = .ok xs := by
  rw [items]
  induction xs with
  | nil => rfl
  | cons x xs ih =>
      rw [List.map_cons, List.mapM_cons, each x List.mem_cons_self,
        ih fun y later => each y (List.mem_cons_of_mem x later)]
      rfl

theorem items_ofTexts (xs : List String) : items text (.ofTexts xs) = .ok xs :=
  items_map fun _ _ => rfl

theorem optional_ofText? (x : Option String) : optional text (.ofText? x) = .ok x := by
  cases x <;> rfl

theorem optional_map {encode : α → Value} {x : Option α} (shown : ∀ a ∈ x, encode a ≠ .null)
    (each : ∀ a ∈ x, decode (encode a) = .ok a) :
    optional decode ((x.map encode).getD .null) = .ok x := by
  cases x with
  | none => rfl
  | some a =>
      have here := shown a rfl
      have read := each a rfl
      rw [Option.map_some, Option.getD_some]
      cases form : encode a with
      | null => exact absurd form here
      | _ =>
          rw [form] at read
          simp only [optional, read]
          rfl

theorem check_cons {asked : String → Option (Value → Decoded Unit)}
    (passed : ∀ test ∈ asked name, test v = .ok ()) :
    check ((name, v) :: fs) asked = check fs asked := by
  rw [check, List.forM_eq_forM, List.forM_cons]
  cases question : asked name with
  | none =>
      simp only [question]
      rfl
  | some test =>
      simp only [question, passed test question]
      rfl

theorem check_of_unasked {asked : String → Option (Value → Decoded Unit)}
    (unasked : ∀ f ∈ fs, asked f.1 = none) : check fs asked = .ok () := by
  induction fs with
  | nil => rfl
  | cons f fs ih =>
      rw [check_cons (by simp [unasked f List.mem_cons_self])]
      exact ih fun g member => unasked g (List.mem_cons_of_mem f member)

theorem test_of_ok (read : decode v = .ok a) : test decode v = .ok () := by
  rw [test, read]
  rfl

end Laws

end Decode

/-! ## Values of documents -/

namespace Value

@[simp] theorem held_ofText? (x : Option String) : (ofText? x).Held := by
  cases x <;> simp [ofText?]

@[simp] theorem held_ofTexts (xs : List String) : (ofTexts xs).Held := by
  simp [ofTexts]

theorem held_ofInt? {n : Option Int} (word : ∀ k ∈ n, Decimal.Word.least 64 ≤ k ∧ k < Decimal.Word.size 64) :
    (ofInt? n).Held := by
  cases n with
  | none => exact .null
  | some k => exact .num (.int (word k rfl).1 (word k rfl).2)

theorem held_getD {x : Option Value} (each : ∀ v ∈ x, v.Held) : (x.getD .null).Held := by
  cases x with
  | none => exact .null
  | some v => exact each v rfl

theorem held_ofFloat (x : Float) : (ofFloat x).Held := by
  rw [ofFloat]
  split
  · next finite => exact .num (.float finite)
  · exact .null

theorem Held.filter {fields : Fields} (held : (Value.obj fields).Held) (p : String × Value → Bool) :
    (Value.obj (fields.filter p)).Held := by
  obtain ⟨distinct, each⟩ := held_obj_iff.mp held
  refine .obj (distinct.sublist (List.filter_sublist.map _)) ?_
  intro f member
  exact each f (List.mem_filter.mp member).1

end Value

end CrewFlow.Json

namespace CrewFlow.Spec

open Json (Value Fields Decoded)

/-! ## Tools and language models -/

theorem ToolSpec.ofJson_toJson (t : ToolSpec) : ToolSpec.ofJson t.toJson = .ok t := by
  cases t with
  | native name params => rfl
  | custom implementation name params => cases name <;> rfl
  | hosted host tool => rfl
  | server host allowed =>
      cases allowed with
      | none => rfl
      | some names =>
          have read : Json.Decode.optional (Json.Decode.items Json.Decode.text) (Value.ofTexts names) =
              .ok (some names) := by
            have texts := Json.Decode.items_ofTexts names
            rw [Value.ofTexts] at texts ⊢
            simp only [Json.Decode.optional, texts]
            rfl
          let fields : Fields :=
            [("type", .str "server"), ("server", .str host), ("tools", Value.ofTexts names)]
          have checked : Json.Decode.check fields (ToolSpec.asked "server") = .ok () := by
            rw [Json.Decode.check_cons (by simp [ToolSpec.asked]), Json.Decode.check_cons,
              Json.Decode.check_cons]
            · rfl
            · simp [ToolSpec.asked, Json.Decode.test_of_ok read]
            · simp [ToolSpec.asked, Json.Decode.test, Json.Decode.text, Except.map]
          have typed : Json.Decode.required fields "type" ToolSpec.variantOf = .ok "server" := rfl
          have hosted : Json.Decode.required fields "server" Json.Decode.text = .ok host := rfl
          have listed : Json.Decode.defaulted fields "tools"
              (Json.Decode.optional (Json.Decode.items Json.Decode.text)) none = .ok (some names) :=
            Json.Decode.defaulted_of_get? rfl read
          have form : (ToolSpec.server host (some names)).toJson = .obj fields := rfl
          rw [form, ToolSpec.ofJson, ToolSpec.ofFields]
          simp [typed, checked, hosted, listed, bind, Except.bind, pure, Except.pure]

def ToolSpec.Portable : ToolSpec → Prop
  | .native _ params | .custom _ _ params => (Value.obj params).Held
  | _ => True

theorem ToolSpec.held_toJson {t : ToolSpec} (portable : t.Portable) : t.toJson.Held := by
  cases t with
  | native name params =>
      have settings : (Value.obj params).Held := portable
      simpa [ToolSpec.toJson] using settings
  | custom implementation name params =>
      have settings : (Value.obj params).Held := portable
      simpa [ToolSpec.toJson] using settings
  | hosted host tool => simp [ToolSpec.toJson]
  | server host allowed => cases allowed <;> simp [ToolSpec.toJson]

/-- What is beside the model and the temperature is neither and is of a document, and the temperature is
finite. -/
structure LlmSpec.Portable (l : LlmSpec) : Prop where
  extra : ∀ f ∈ l.extra, f.1 ≠ "model" ∧ f.1 ≠ "temperature"
  held : (Value.obj l.extra).Held
  finite : ∀ t ∈ l.temperature, t.isFinite = true

theorem LlmSpec.toJson_ne_null (l : LlmSpec) : l.toJson ≠ .null := by
  simp [LlmSpec.toJson]

theorem LlmSpec.ofJson_toJson {l : LlmSpec} (portable : l.Portable) : LlmSpec.ofJson l.toJson = .ok l := by
  obtain ⟨model, temperature, extra⟩ := l
  obtain ⟨others, _, finite⟩ := portable
  let fields : Fields := ("model", .ofText? model) ::
    ("temperature", (temperature.map Value.ofFloat).getD .null) :: extra
  have named := Json.Decode.optional_ofText? model
  have heat : Json.Decode.optional Json.Decode.float ((temperature.map Value.ofFloat).getD .null) =
      .ok temperature := by
    cases temperature with
    | none => rfl
    | some t =>
        have number : Value.ofFloat t = .num (.float t) := by simp [Value.ofFloat, finite t rfl]
        rw [Option.map_some, Option.getD_some, number]
        rfl
  have unasked : Json.Decode.check extra Entry.llmAsked = .ok () := by
    apply Json.Decode.check_of_unasked
    intro f member
    obtain ⟨notModel, notTemperature⟩ := others f member
    simp [Entry.llmAsked, notModel, notTemperature]
  have checked : Json.Decode.check fields Entry.llmAsked = .ok () := by
    rw [Json.Decode.check_cons, Json.Decode.check_cons, unasked]
    · simp [Entry.llmAsked, Json.Decode.test_of_ok heat]
    · simp [Entry.llmAsked, Json.Decode.test_of_ok named]
  have kept : fields.filter (fun f => f.1 ≠ "model" ∧ f.1 ≠ "temperature") = extra := by
    have rest : extra.filter (fun f => f.1 ≠ "model" ∧ f.1 ≠ "temperature") = extra := by
      apply List.filter_eq_self.mpr
      intro f member
      simpa using others f member
    simpa [fields] using rest
  have ofModel : Json.Decode.defaulted fields "model" (Json.Decode.optional Json.Decode.text) none =
      .ok model := Json.Decode.defaulted_of_get? rfl named
  have ofHeat : Json.Decode.defaulted fields "temperature" (Json.Decode.optional Json.Decode.float) none =
      .ok temperature := Json.Decode.defaulted_of_get? rfl heat
  change LlmSpec.ofFields fields = _
  simp only [LlmSpec.ofFields, checked, ofModel, ofHeat, kept, bind, Except.bind, pure, Except.pure]

theorem LlmSpec.held_toJson {l : LlmSpec} (portable : l.Portable) : l.toJson.Held := by
  obtain ⟨model, temperature, extra⟩ := l
  obtain ⟨others, held, _⟩ := portable
  obtain ⟨distinct, each⟩ := Value.held_obj_iff.mp held
  have noModel : "model" ∉ extra.map (·.1) := by
    simpa using fun v member => (others _ member).1 rfl
  have noTemperature : "temperature" ∉ extra.map (·.1) := by
    simpa using fun v member => (others _ member).2 rfl
  have heat : ((temperature.map Value.ofFloat).getD .null).Held := by
    cases temperature with
    | none => exact .null
    | some t => exact Value.held_ofFloat t
  refine .obj ?_ ?_
  · simp only [List.map_cons, List.nodup_cons, List.mem_cons, not_or]
    exact ⟨⟨by decide, noModel⟩, noTemperature, distinct⟩
  · exact List.forall_mem_cons.mpr ⟨by simp, List.forall_mem_cons.mpr ⟨heat, each⟩⟩

/-! ## Entries -/

theorem optional_count32 {n : Option Nat} (small : ∀ k ∈ n, k ≤ Entry.maxCount) :
    Json.Decode.optional count32 (countJson n) = .ok n := by
  cases n with
  | none => rfl
  | some k =>
      have range : (0 : Int) ≤ k ∧ (k : Int) ≤ (Decimal.Word.size 32 : Int) - 1 := by
        have within : k ≤ 4294967295 := small k rfl
        have size : Decimal.Word.size 32 = 4294967296 := rfl
        omega
      simp [countJson, Value.ofInt?, Value.int, Json.Decode.optional, count32, Json.Decode.int, range,
        Except.map]

theorem optional_count64 {n : Option Nat} (small : ∀ k ∈ n, (k : Int) ≤ Entry.maxInt) :
    Json.Decode.optional count64 (countJson n) = .ok n := by
  cases n with
  | none => rfl
  | some k =>
      have range : (0 : Int) ≤ k ∧ (k : Int) ≤ (Decimal.Word.size 64 : Int) - 1 := by
        have within : (k : Int) ≤ 9223372036854775807 := small k rfl
        have size : Decimal.Word.size 64 = 18446744073709551616 := rfl
        omega
      simp [countJson, Value.ofInt?, Value.int, Json.Decode.optional, count64, Json.Decode.int, range,
        Except.map]

theorem optional_int64 {n : Option Int}
    (word : ∀ k ∈ n, Decimal.Word.least 64 ≤ k ∧ k ≤ Decimal.Word.greatest 64) :
    Json.Decode.optional int64 (.ofInt? n) = .ok n := by
  cases n with
  | none => rfl
  | some k =>
      simp [Value.ofInt?, Value.int, Json.Decode.optional, int64, Json.Decode.int, word k rfl, Except.map]

/-- The limits of an agent are in the range of their readers. -/
structure AgentSpec.Portable (a : AgentSpec) : Prop where
  tools : ∀ t ∈ a.tools, t.Portable
  llm : ∀ l ∈ a.llm, l.Portable
  iterations : ∀ n ∈ a.maxIter, n ≤ Entry.maxCount
  time : ∀ n ∈ a.maxExecutionTime, (n : Int) ≤ Entry.maxInt
  requests : ∀ n ∈ a.maxRpm, n ≤ Entry.maxCount

theorem AgentSpec.ofJson_toJson {a : AgentSpec} (portable : a.Portable) :
    AgentSpec.ofJson a.toJson = .ok a := by
  have tools : Json.Decode.items ToolSpec.ofJson (.arr (a.tools.map ToolSpec.toJson)) = .ok a.tools :=
    Json.Decode.items_map fun t _ => ToolSpec.ofJson_toJson t
  have llm : Json.Decode.optional LlmSpec.ofJson ((a.llm.map LlmSpec.toJson).getD .null) = .ok a.llm :=
    Json.Decode.optional_map (fun l _ => l.toJson_ne_null)
      fun l member => LlmSpec.ofJson_toJson (portable.llm l member)
  simp [AgentSpec.toJson, AgentSpec.ofJson, Json.Decode.record, Json.Decode.required, Json.Decode.defaulted,
    Fields.get?, List.lookup_cons, Json.Decode.text, Json.Decode.bool, tools, llm,
    optional_count32 portable.iterations, optional_count64 portable.time,
    optional_count32 portable.requests, bind, Except.bind, pure, Except.pure]

theorem held_countJson {n : Option Nat} (small : ∀ k ∈ n, (k : Int) ≤ Entry.maxInt) : (countJson n).Held := by
  apply Value.held_ofInt?
  intro k shown
  obtain ⟨m, given, rfl⟩ := Option.map_eq_some_iff.mp shown
  have within : (m : Int) ≤ 9223372036854775807 := small m given
  have least : Decimal.Word.least 64 = -9223372036854775808 := rfl
  have size : Decimal.Word.size 64 = 18446744073709551616 := rfl
  rw [Int.ofNat_eq_natCast]
  omega

theorem AgentSpec.held_toJson {a : AgentSpec} (portable : a.Portable) : a.toJson.Held := by
  have most {n : Option Nat} (small : ∀ k ∈ n, k ≤ Entry.maxCount) : ∀ k ∈ n, (k : Int) ≤ Entry.maxInt := by
    intro k given
    have within : k ≤ 4294967295 := small k given
    change (k : Int) ≤ 9223372036854775807
    omega
  have tools : ∀ t ∈ a.tools, t.toJson.Held := fun t member => ToolSpec.held_toJson (portable.tools t member)
  have llm : ((a.llm.map LlmSpec.toJson).getD .null).Held := by
    apply Value.held_getD
    intro v shown
    obtain ⟨l, given, rfl⟩ := Option.map_eq_some_iff.mp shown
    exact LlmSpec.held_toJson (portable.llm l given)
  simpa [AgentSpec.toJson, llm, held_countJson (most portable.iterations), held_countJson portable.time,
    held_countJson (most portable.requests)] using tools

structure TaskSpec.Portable (t : TaskSpec) : Prop where
  tools : ∀ tool ∈ t.tools, tool.Portable
  word : ∀ n ∈ t.executionNumber, Decimal.Word.least 64 ≤ n ∧ n ≤ Decimal.Word.greatest 64

theorem TaskSpec.ofJson_toJson {t : TaskSpec} (portable : t.Portable) :
    TaskSpec.ofJson t.toJson = .ok t := by
  have tools : Json.Decode.items ToolSpec.ofJson (.arr (t.tools.map ToolSpec.toJson)) = .ok t.tools :=
    Json.Decode.items_map fun t _ => ToolSpec.ofJson_toJson t
  simp [TaskSpec.toJson, TaskSpec.ofJson, Json.Decode.record, Json.Decode.required, Json.Decode.defaulted,
    Fields.get?, List.lookup_cons, Json.Decode.text, Json.Decode.bool, tools,
    Json.Decode.optional_ofText?, Json.Decode.items_ofTexts, optional_int64 portable.word, bind,
    Except.bind, pure, Except.pure]

theorem TaskSpec.held_toJson {t : TaskSpec} (portable : t.Portable) : t.toJson.Held := by
  have tools : ∀ tool ∈ t.tools, tool.toJson.Held :=
    fun tool member => ToolSpec.held_toJson (portable.tools tool member)
  have number : (Value.ofInt? t.executionNumber).Held := by
    apply Value.held_ofInt?
    intro k given
    refine ⟨(portable.word k given).1, (portable.word k given).2.trans_lt ?_⟩
    decide +kernel
  simpa [TaskSpec.toJson, number] using tools

theorem CrewSpec.ofJson_toJson (c : CrewSpec) : CrewSpec.ofJson c.toJson = .ok c := by
  have process : Json.Decode.variant ([CrewProcess.sequential, .hierarchical].map fun p => (p.text, p))
      (.str c.process.text) = .ok c.process := by
    cases c.process <;> rfl
  simp [-List.map_cons, CrewSpec.toJson, CrewSpec.ofJson, Json.Decode.record, Json.Decode.required,
    Json.Decode.defaulted, Fields.get?, List.lookup_cons, Json.Decode.text, Json.Decode.bool, process,
    Json.Decode.optional_ofText?, Json.Decode.items_ofTexts, bind, Except.bind, pure, Except.pure]

theorem CrewSpec.held_toJson (c : CrewSpec) : c.toJson.Held := by
  simp [CrewSpec.toJson]

/-- The default is of a document; null as a default would be read as none. -/
structure FieldSpec.Portable (f : FieldSpec) : Prop where
  held : ∀ v ∈ f.default?, v.Held
  shown : ∀ v ∈ f.default?, v ≠ .null

theorem FieldSpec.ofJson_toJson {f : FieldSpec} (portable : f.Portable) :
    FieldSpec.ofJson f.toJson = .ok f := by
  have type : Json.Decode.variant fieldTypes (.str f.type.word) = .ok f.type := by
    cases f.type <;> rfl
  have default : Json.Decode.any (f.default?.getD .null) = .ok f.default? := by
    cases given : f.default? with
    | none => rfl
    | some v =>
        have shown := portable.shown v given
        cases v <;> first | rfl | exact absurd rfl shown
  simp [FieldSpec.toJson, FieldSpec.ofJson, Json.Decode.record, Json.Decode.required,
    Json.Decode.defaulted, Fields.get?, List.lookup_cons, Json.Decode.text, type, default, bind,
    Except.bind, pure, Except.pure]

theorem FieldSpec.held_toJson {f : FieldSpec} (portable : f.Portable) : f.toJson.Held := by
  simpa [FieldSpec.toJson] using Value.held_getD portable.held

theorem RouteTable.ofJson_toJson (r : RouteTable) : RouteTable.ofJson r.toJson = .ok r := by
  obtain ⟨onTrue, onFalse, otherwise⟩ := r
  cases onTrue <;> cases onFalse <;> cases otherwise <;> rfl

theorem MethodSpec.ofJson_toJson (m : MethodSpec) : MethodSpec.ofJson m.toJson = .ok m := by
  have kind : Json.Decode.variant ([MethodKind.start, .listen, .router].map fun k => (k.text, k))
      (.str m.kind.text) = .ok m.kind := by
    cases m.kind <;> rfl
  have join : Json.Decode.variant ([Join.all, .any].map fun j => (j.text, j)) (.str m.join.text) =
      .ok m.join := by
    cases m.join <;> rfl
  simp [-List.map_cons, MethodSpec.toJson, MethodSpec.ofJson, Json.Decode.record, Json.Decode.required,
    Json.Decode.defaulted, Fields.get?, List.lookup_cons, Json.Decode.text, kind, join,
    RouteTable.ofJson_toJson, Json.Decode.optional_ofText?, Json.Decode.items_ofTexts, bind, Except.bind,
    pure, Except.pure]

theorem MethodSpec.held_toJson (m : MethodSpec) : m.toJson.Held := by
  simp [MethodSpec.toJson, RouteTable.toJson]

/-! ## Workflows -/

structure Workflow.Portable (w : Workflow) : Prop where
  agents : ∀ a ∈ w.agents, a.Portable
  tasks : ∀ t ∈ w.tasks, t.Portable
  state : ∀ f ∈ w.state, f.Portable

theorem Workflow.ofJson_toJson {w : Workflow} (portable : w.Portable) :
    Workflow.ofJson w.toJson = .ok w := by
  have orchestration : Json.Decode.variant ([Orchestration.crew, .flow].map fun o => (o.text, o))
      (.str w.orchestration.text) = .ok w.orchestration := by
    cases w.orchestration <;> rfl
  have agents := Json.Decode.items_map fun a member => AgentSpec.ofJson_toJson (portable.agents a member)
  have tasks := Json.Decode.items_map fun t member => TaskSpec.ofJson_toJson (portable.tasks t member)
  have crews := Json.Decode.items_map fun c (_ : c ∈ w.crews) => CrewSpec.ofJson_toJson c
  have state := Json.Decode.items_map fun f member => FieldSpec.ofJson_toJson (portable.state f member)
  have methods := Json.Decode.items_map fun m (_ : m ∈ w.methods) => MethodSpec.ofJson_toJson m
  simp [-List.map_cons, Workflow.toJson, Workflow.ofJson, Json.Decode.record, Json.Decode.required,
    Json.Decode.defaulted, Fields.get?, List.lookup_cons, orchestration, agents, tasks, crews, state,
    methods, Json.Decode.optional_ofText?, bind, Except.bind, pure, Except.pure]

theorem Workflow.held_toJson {w : Workflow} (portable : w.Portable) : w.toJson.Held := by
  have agents : ∀ a ∈ w.agents, a.toJson.Held :=
    fun a member => AgentSpec.held_toJson (portable.agents a member)
  have tasks : ∀ t ∈ w.tasks, t.toJson.Held :=
    fun t member => TaskSpec.held_toJson (portable.tasks t member)
  have state : ∀ f ∈ w.state, f.toJson.Held :=
    fun f member => FieldSpec.held_toJson (portable.state f member)
  simpa [Workflow.toJson, CrewSpec.held_toJson, MethodSpec.held_toJson] using ⟨agents, tasks, state⟩

/-! ## Validated workflows -/

section Reading
variable {fields : Fields} {i : Nat} {e : Entry} {key name : String}

theorem held_of_written {v x : Value} (held : v.Held) (found : written v key = some x) : x.Held :=
  held.get? (Option.filter_eq_some_iff.mp found).1

theorem le_maxInt_of_optionalInt {least : Option Int} {n : Int}
    (kept : (e.optionalInt key least).value = some n) : n ≤ Entry.maxInt := by
  have given := Entry.get?_of_optionalInt kept
  rw [Entry.optionalInt, given] at kept
  simp only at kept
  split at kept
  · next within =>
      cases kept
      exact within.1
  · cases kept

theorem le_maxInt_of_optionalPositive {n : Nat} (kept : (e.optionalPositive key).value = some n) :
    (n : Int) ≤ Entry.maxInt := by
  obtain ⟨m, found, rfl⟩ := Option.map_eq_some_iff.mp kept
  have large := le_maxInt_of_optionalInt found
  have positive := Entry.least_le_of_optionalInt found
  omega

theorem finite_of_float {v : Value} {t : Option Float} (held : v.Held)
    (read : Json.Decode.optional Json.Decode.float v = .ok t) : ∀ x ∈ t, x.isFinite = true := by
  cases held with
  | null =>
      cases read
      simp
  | num number =>
      cases read
      rintro x ⟨⟩
      exact number.isFinite
  | _ => cases read

theorem portable_of_ofFields {l : LlmSpec} (held : (Value.obj fields).Held)
    (read : LlmSpec.ofFields fields = .ok l) : l.Portable := by
  simp only [LlmSpec.ofFields, bind, Except.bind, pure, Except.pure] at read
  split at read
  · cases read
  · split at read
    · cases read
    · split at read
      · cases read
      · next t heat =>
          cases read
          refine ⟨?_, held.filter _, ?_⟩
          · intro f member
            simpa using (List.mem_filter.mp member).2
          · rw [Json.Decode.defaulted] at heat
            split at heat
            · next v found => exact finite_of_float (held.get? found) heat
            · cases heat
              simp

theorem portable_of_llm (held : (Value.obj e.fields).Held) : ∀ l ∈ e.llm.value, l.Portable := by
  intro l kept
  unfold Entry.llm at kept
  split at kept
  · cases kept
  · cases kept
    exact ⟨by simp, by simp, by simp⟩
  · next fields found =>
      split at kept
      · next llm read =>
          cases kept
          exact portable_of_ofFields (held_of_written held found) read
      · cases kept
  · cases kept

theorem held_of_params {params : Fields} (held : (Value.obj fields).Held)
    (read : Json.Decode.defaulted fields "params" Json.Decode.fields [] = .ok params) :
    (Value.obj params).Held := by
  rw [Json.Decode.defaulted] at read
  split at read
  · next v found =>
      cases v with
      | obj settings =>
          cases read
          exact held.get? found
      | _ => cases read
  · cases read
    simp

theorem portable_of_tool {t : ToolSpec} (held : (Value.obj fields).Held)
    (read : ToolSpec.ofFields fields = .ok t) : t.Portable := by
  rw [ToolSpec.ofFields] at read
  obtain ⟨variant, _, read⟩ := Json.Decode.exists_of_bind read
  obtain ⟨_, _, read⟩ := Json.Decode.exists_of_bind read
  split_ifs at read
  · obtain ⟨name, _, read⟩ := Json.Decode.exists_of_bind read
    obtain ⟨params, settings, read⟩ := Json.Decode.exists_of_bind read
    cases read
    exact held_of_params held settings
  · obtain ⟨implementation, _, read⟩ := Json.Decode.exists_of_bind read
    obtain ⟨name, _, read⟩ := Json.Decode.exists_of_bind read
    obtain ⟨params, settings, read⟩ := Json.Decode.exists_of_bind read
    cases read
    exact held_of_params held settings
  · obtain ⟨host, _, read⟩ := Json.Decode.exists_of_bind read
    obtain ⟨tool, _, read⟩ := Json.Decode.exists_of_bind read
    cases read
    trivial
  · obtain ⟨host, _, read⟩ := Json.Decode.exists_of_bind read
    obtain ⟨allowed, _, read⟩ := Json.Decode.exists_of_bind read
    cases read
    trivial

theorem portable_of_declared {v : Value} {t : ToolSpec} (held : v.Held)
    (declared : ToolSpec.declared v = .ok t) : t.Portable := by
  cases v with
  | str s =>
      rw [ToolSpec.declared] at declared
      split at declared
      · cases declared
      · cases declared
        simp [ToolSpec.Portable]
  | obj fields =>
      rw [ToolSpec.declared] at declared
      split at declared
      · cases read : ToolSpec.ofFields fields with
        | error fault =>
            rw [read] at declared
            cases declared
        | ok spec =>
            rw [read] at declared
            cases declared
            exact portable_of_tool held read
      · cases declared
  | _ => cases declared

/-- What holds of an item whenever its value is of a document holds of every item. -/
theorem Lists.each {α : Type} {P : Nat → Value → α → Prop} {Q : α → Prop} {v : Value} {items : List α}
    (lists : Lists P (written v key) items) (held : v.Held)
    (keeps : ∀ i raw a, P i raw a → raw.Held → Q a) : ∀ a ∈ items, Q a := by
  generalize found : written v key = field at lists
  cases lists with
  | missing => simp
  | @listed values items same =>
      intro a member
      obtain ⟨i, below, rfl⟩ := List.mem_iff_getElem.mp member
      have there : i < values.length := same.count ▸ below
      cases held_of_written held found with
      | arr each =>
          exact keeps i _ _ (same.each i values[i] items[i] (List.getElem?_eq_getElem there)
            (List.getElem?_eq_getElem below)) (each _ (List.getElem_mem there))

theorem portable_of_tools (held : (Value.obj e.fields).Held) (clean : e.tools.issues = []) :
    ∀ t ∈ e.tools.value, t.Portable :=
  Lists.each (Entry.toolsOf_of_tools clean) held fun _ _ _ declared held => portable_of_declared held declared

theorem portable_of_readAgent {a : AgentSpec} (held : (Value.obj e.fields).Held)
    (clean : (readAgent i e).issues = []) (value : (readAgent i e).value = (some name, some a)) :
    a.Portable := by
  simp only [readAgent, Checked.clean_bind, Checked.value_bind, Checked.value_pure, Option.bind_eq_bind,
    Prod.mk.injEq, Option.bind_eq_some_iff] at clean value
  obtain ⟨_, _, _, _, _, _, _, ⟨⟩⟩ := value
  obtain ⟨_, _, _, tools, _⟩ := clean
  refine ⟨portable_of_tools held tools, portable_of_llm held, ?_, ?_, ?_⟩
  · exact fun n kept => (Entry.within_of_optionalCount kept).2
  · exact fun n kept => le_maxInt_of_optionalPositive kept
  · exact fun n kept => (Entry.within_of_optionalCount kept).2

theorem portable_of_readTask {t : TaskSpec} (held : (Value.obj e.fields).Held)
    (clean : (readTask i e).issues = []) (value : (readTask i e).value = (some name, some t)) :
    t.Portable := by
  simp only [readTask, Checked.clean_bind, Checked.value_bind, Checked.value_pure, Option.bind_eq_bind,
    Prod.mk.injEq, Option.bind_eq_some_iff] at clean value
  obtain ⟨_, _, _, _, _, _, _, ⟨⟩⟩ := value
  obtain ⟨_, _, _, _, tools, _⟩ := clean
  refine ⟨portable_of_tools held tools, ?_⟩
  intro n kept
  refine ⟨?_, le_maxInt_of_optionalInt kept⟩
  cases held_of_written held (Entry.get?_of_optionalInt kept) with
  | num number =>
      cases number with
      | int least size => exact least

theorem portable_of_readAgents (held : (Value.obj fields).Held) (clean : (readAgents fields).issues = []) :
    ∀ a ∈ (readAgents fields).value, a.Portable := by
  have lists := lists_of_walk (s := .agents) (P := fun _ raw a => raw.Held → a.Portable)
    (fun i e clean => by
      obtain ⟨a, value, _⟩ := readAgent_clean clean
      exact ⟨_, a, value⟩)
    (fun _ _ _ _ clean value held => portable_of_readAgent held clean value) clean
  exact lists.each held fun _ _ _ keeps held => keeps held

theorem portable_of_readTasks (held : (Value.obj fields).Held) (clean : (readTasks fields).issues = []) :
    ∀ t ∈ (readTasks fields).value, t.Portable := by
  have lists := lists_of_walk (s := .tasks) (P := fun _ raw t => raw.Held → t.Portable)
    (fun i e clean => by
      obtain ⟨t, value, _⟩ := readTask_clean clean
      exact ⟨_, t, value⟩)
    (fun _ _ _ _ clean value held => portable_of_readTask held clean value) clean
  exact lists.each held fun _ _ _ keeps held => keeps held

/-! ## Defaults -/

theorem held_of_readFieldType {path : Path} {decl v : Value} {type : FieldType} (held : decl.Held)
    (value : (readFieldType path decl).value = some (type, some v)) : v.Held := by
  cases decl with
  | obj spec =>
      simp only [readFieldType] at value
      split at value
      · split at value
        · simp only [Checked.value_pure, Option.some.injEq, Prod.mk.injEq] at value
          exact held.get? (Option.filter_eq_some_iff.mp value.2).1
        · cases value
      · cases value
      · cases value
        exact held
  | null => cases value
  | _ =>
      simp only [readFieldType, Checked.value_pure, Option.map_eq_some_iff] at value
      obtain ⟨_, _, same⟩ := value
      cases same
      exact held

theorem portable_of_readField {declared : String} {decl : Value} {f : FieldSpec} (held : decl.Held)
    (kept : (readField declared decl).value = some f) : f.Portable := by
  unfold readField at kept
  split at kept
  · cases kept
  · cases typed : (readFieldType [.key Section.state.key, .key declared] decl).value with
    | none =>
        simp only [Checked.value_bind, typed] at kept
        cases kept
    | some found =>
        obtain ⟨type, default?⟩ := found
        simp only [Checked.value_bind, typed] at kept
        cases default? with
        | none =>
            cases kept
            constructor <;> simp
        | some v =>
            simp only at kept
            split at kept
            · next accepted =>
                cases kept
                refine ⟨?_, ?_⟩
                · rintro _ ⟨⟩
                  exact held_of_readFieldType held typed
                · rintro _ ⟨⟩ rfl
                  cases type <;> simp [FieldType.accepts] at accepted
            · cases kept

theorem portable_of_readFields {decls : Fields} (held : ∀ decl ∈ decls, decl.2.Held) :
    ∀ f ∈ (readFields decls).value, f.Portable := by
  induction decls with
  | nil =>
      intro f member
      cases member
  | cons decl rest ih =>
      intro f member
      simp only [readFields, Checked.value_bind, Checked.value_pure, List.mem_append,
        Option.mem_toList] at member
      rcases member with kept | later
      · exact portable_of_readField (held decl List.mem_cons_self) kept
      · exact ih (fun d member => held d (List.mem_cons_of_mem decl member)) f later

theorem portable_of_readState (held : (Value.obj fields).Held) :
    ∀ f ∈ (readState fields).value, f.Portable := by
  unfold readState
  split
  · simp
  · next decls found =>
      cases held_of_written held (found : written (.obj fields) _ = _) with
      | obj distinct each => exact portable_of_readFields each
  · simp

theorem portable_of_validate {doc : Parsed} {w : Workflow} (held : (Value.obj doc.fields).Held)
    (accepted : validate doc = .ok w) : w.Portable := by
  obtain ⟨clean, rfl⟩ := validate_clean accepted
  obtain ⟨fields, orchestration⟩ := doc
  obtain ⟨agents, tasks, _⟩ := by simpa only [checkDocument, Checked.clean_bind] using clean
  have ofAgents := portable_of_readAgents held agents
  have ofTasks := portable_of_readTasks held tasks
  cases orchestration with
  | crew => exact ⟨ofAgents, ofTasks, by simp [checkDocument]⟩
  | flow => exact ⟨ofAgents, ofTasks, portable_of_readState held⟩

end Reading

/-! ## The way back -/

/-- What passes validation is read back from its JSON form, as it was; and from the text of that form, when the
reader goes that deep and reads the doubles in it as they are. -/
theorem validated_workflow_reads_back {doc : Parsed} {w : Workflow} (held : (Value.obj doc.fields).Held)
    (accepted : validate doc = .ok w) :
    Workflow.ofJson w.toJson = .ok w ∧
      (w.toJson.Legible Json.nestingLimit →
        (Json.parse? w.toJson.text).map Workflow.ofJson = some (.ok w)) := by
  have portable := portable_of_validate held accepted
  have read : Workflow.ofJson w.toJson = .ok w := Workflow.ofJson_toJson portable
  refine ⟨read, ?_⟩
  intro legible
  rw [legible.parse?_text (Workflow.held_toJson portable), Option.map_some, read]

/-- A crew whose agent has one tool with one setting. -/
def gauged (scale : Float) : Parsed :=
  { orchestration := .crew
    fields :=
      [("agents", .arr
         [.obj [("role", .str "me"), ("goal", .str "look"), ("backstory", .str "me"),
           ("tools", .arr [.obj [("type", .str "native"), ("name", .str "gauge"),
             ("params", .obj [("scale", .num (.float scale))])]])]]),
       ("tasks", .arr
         [.obj [("name", .str "t"), ("description", .str "look"), ("expected_output", .str "it"),
           ("agent", .str "me")]]),
       ("crews", .arr [.obj [("name", .str "us")]])] }

theorem held_gauged {scale : Float} (finite : scale.isFinite = true) :
    (Value.obj (gauged scale).fields).Held := by
  simpa [gauged] using Json.Number.Held.float finite

theorem gauged_reads_back :
    ∃ w, validate (gauged 0.5) = .ok w ∧ Workflow.ofJson w.toJson = .ok w ∧
      (Json.parse? w.toJson.text).map Workflow.ofJson = some (.ok w) := by
  have clean : (checkDocument (gauged 0.5)).issues.isEmpty = true := by decide +kernel
  have accepted : validate (gauged 0.5) = .ok (checkDocument (gauged 0.5)).value := by
    simp only [validate, if_pos clean]
  obtain ⟨form, text⟩ := validated_workflow_reads_back (held_gauged (by decide +kernel)) accepted
  exact ⟨_, accepted, form, text (.of_check _ (by decide +kernel))⟩

/-- The reader of texts is off in the last digit of some doubles. -/
theorem gauged_reads_otherwise :
    ¬ ∀ (doc : Parsed) (w : Workflow), (Value.obj doc.fields).Held → validate doc = .ok w →
      (Json.parse? w.toJson.text).map Workflow.ofJson = some (.ok w) := by
  intro always
  let doc := gauged 31.245270191439438
  have clean : (checkDocument doc).issues.isEmpty = true := by decide +kernel
  have accepted : validate doc = .ok (checkDocument doc).value := by simp only [validate, if_pos clean]
  have same := always doc _ (held_gauged (by decide +kernel)) accepted
  have read := congrArg (Option.map fun found => found.toOption.map fun w => w.toJson.chars) same
  rw [Json.parse?_text] at read
  exact absurd read (by decide +kernel)

end CrewFlow.Spec
