import Mathlib
import CrewFlow.Proofs.Spec.Kept
/-!
# Reading entries

The rules for the fields of each section, and what reading an entry says and gets. An issue of reading blames
a field for breaking one of its rules. An agent, a task, a crew or a method takes the name of its entry, is
read exactly when the entry is whole, and then has in it what the entry says. A field of the state is read
exactly when it is without a fault.
-/
set_option autoImplicit false

namespace CrewFlow.Spec

open Json (Value Fields)

/-! ## Rules for entries -/

def Section.rules : Section → List (String × Rule)
  | .agents =>
    [("role", .text), ("goal", .text), ("backstory", .text), ("tools", .tools), ("llm", .model),
      ("max_iter", .count), ("max_execution_time", .whole (some 1)), ("max_rpm", .count),
      ("allow_code_execution", .flag)]
  | .tasks =>
    [("name", .text), ("description", .text), ("expected_output", .text), ("agent", .textIfAny),
      ("tools", .tools), ("context", .names), ("execution_number", .whole none),
      ("async_execution", .flag)]
  | .crews =>
    [("name", .textIfAny), ("agents", .names), ("tasks", .names), ("process", .textIfAny),
      ("process", .word fun s => refusal (CrewProcess.ofText s)), ("manager", .textIfAny),
      ("memory", .flag)]
  | .methods =>
    [("name", .text), ("type", .text), ("type", .word fun s => refusal (MethodKind.ofText s)),
      ("crew", .textIfAny), ("listen_to", .names), ("logic", .textIfAny),
      ("logic", .word fun s => refusal (Join.ofText s)), ("condition", .textIfAny),
      ("routes", .routes), ("output", .textIfAny)]
  | .tools => []
  | .state => []

def Faulty (s : Section) (e : Entry) (issue : Issue) : Prop :=
  ∃ key rule, (key, rule) ∈ s.rules ∧ Blames e key rule issue

section Reading
variable {s : Section} {e : Entry} {key : String}

theorem each_ruled {α : Type} {rule : Rule} {c : Checked α} (each : c.Each (Blames e key rule))
    (ruled : (key, rule) ∈ s.rules) : c.Each (Faulty s e) :=
  each.mono fun _ blames => ⟨key, rule, ruled, blames⟩

theorem each_readAgent (i : Nat) (e : Entry) : (readAgent i e).Each (Faulty .agents e) := by
  simp only [readAgent, Checked.each_bind, Checked.each_pure, and_true]
  exact ⟨each_ruled Entry.each_requiredText (by simp [Section.rules]),
    each_ruled Entry.each_requiredText (by simp [Section.rules]),
    each_ruled Entry.each_requiredText (by simp [Section.rules]),
    each_ruled Entry.each_tools (by simp [Section.rules]),
    each_ruled Entry.each_llm (by simp [Section.rules]),
    each_ruled Entry.each_optionalCount (by simp [Section.rules]),
    each_ruled Entry.each_optionalPositive (by simp [Section.rules]),
    each_ruled Entry.each_optionalCount (by simp [Section.rules]),
    each_ruled Entry.each_optionalBool (by simp [Section.rules])⟩

theorem each_readTask (i : Nat) (e : Entry) : (readTask i e).Each (Faulty .tasks e) := by
  simp only [readTask, Checked.each_bind, Checked.each_pure, and_true]
  exact ⟨each_ruled Entry.each_requiredText (by simp [Section.rules]),
    each_ruled Entry.each_requiredText (by simp [Section.rules]),
    each_ruled Entry.each_requiredText (by simp [Section.rules]),
    each_ruled Entry.each_optionalText (by simp [Section.rules]),
    each_ruled Entry.each_tools (by simp [Section.rules]),
    each_ruled Entry.each_nameList (by simp [Section.rules]),
    each_ruled Entry.each_optionalInt (by simp [Section.rules]),
    each_ruled Entry.each_optionalBool (by simp [Section.rules])⟩

theorem each_ruled_word {α : Type} {read : String → Except UnknownWord α} {other : α}
    (text : (key, .textIfAny) ∈ s.rules) (known : (key, .word fun t => refusal (read t)) ∈ s.rules) :
    (e.word key read other).Each (Faulty s e) :=
  Entry.each_word.mono fun _ blames =>
    blames.elim (fun blames => ⟨key, _, text, blames⟩) fun blames => ⟨key, _, known, blames⟩

theorem each_readCrew (agents : List AgentSpec) (tasks : List TaskSpec) (i : Nat) (e : Entry) :
    (readCrew agents tasks i e).Each (Faulty .crews e) := by
  simp only [readCrew, Checked.each_bind, Checked.each_pure, and_true]
  exact ⟨each_ruled Entry.each_optionalText (by simp [Section.rules]),
    each_ruled Entry.each_nameList (by simp [Section.rules]),
    each_ruled Entry.each_nameList (by simp [Section.rules]),
    each_ruled_word (by simp [Section.rules]) (by simp [Section.rules]),
    each_ruled Entry.each_optionalText (by simp [Section.rules]),
    each_ruled Entry.each_optionalBool (by simp [Section.rules])⟩

theorem each_readMethod (i : Nat) (e : Entry) : (readMethod i e).Each (Faulty .methods e) := by
  have name : (e.requiredText "name").Each (Faulty .methods e) :=
    each_ruled Entry.each_requiredText (by simp [Section.rules])
  have text : (e.requiredText "type").Each (Faulty .methods e) :=
    each_ruled Entry.each_requiredText (by simp [Section.rules])
  have crew : (e.optionalText "crew").Each (Faulty .methods e) :=
    each_ruled Entry.each_optionalText (by simp [Section.rules])
  have listens : (e.nameList "listen_to").Each (Faulty .methods e) :=
    each_ruled Entry.each_nameList (by simp [Section.rules])
  have join : (e.word "logic" Join.ofText .all).Each (Faulty .methods e) :=
    each_ruled_word (by simp [Section.rules]) (by simp [Section.rules])
  have condition : (e.optionalText "condition").Each (Faulty .methods e) :=
    each_ruled Entry.each_optionalText (by simp [Section.rules])
  have routes : e.routes.Each (Faulty .methods e) :=
    each_ruled Entry.each_routes (by simp [Section.rules])
  have output : (e.optionalText "output").Each (Faulty .methods e) :=
    each_ruled Entry.each_optionalText (by simp [Section.rules])
  simp only [readMethod, Checked.each_bind]
  refine ⟨name, text, ?_⟩
  cases given : (e.requiredText "type").value with
  | none => simp [crew, listens, join, condition, routes, output]
  | some s =>
      cases known : MethodKind.ofText s with
      | ok kind => simp [known, crew, listens, join, condition, routes, output]
      | error u =>
          have refused : (e.reject "type" (.unknownWord u) : Checked (Option MethodKind)).Each
              (Faulty .methods e) := by
            rw [Entry.value_requiredText] at given
            exact each_ruled (Entry.blames_reject (Entry.broken_word given known)) (by simp [Section.rules])
          simp [known, refused, crew, listens, join, condition, routes, output]

end Reading

/-! ## What is read -/

section Items
variable {s : Section} {p : Nat} {fields : Fields} {key : String}

theorem said_of_requiredText : ((entry s p fields).requiredText key).value = said (.obj fields) key :=
  Entry.value_requiredText

theorem said_of_optionalText : ((entry s p fields).optionalText key).value = said (.obj fields) key :=
  Entry.value_optionalText

theorem listed_of_nameList :
    ((entry s p fields).nameList key).value.getD [] = listed (.obj fields) key :=
  Entry.value_nameList

theorem routed_of_routes : (entry s p fields).routes.value.targets = routed (.obj fields) :=
  Entry.value_routes

theorem value_readTask (p : Nat) (fields : Fields) :
    let e := entry .tasks p fields
    let v := Value.obj fields
    (readTask p e).value = (takenName .tasks p v, do
      let name ← said v "name"
      let description ← said v "description"
      let expectedOutput ← said v "expected_output"
      return {
        name, description, expectedOutput
        agent := said v "agent"
        tools := e.tools.value
        context := listed v "context"
        executionNumber := (e.optionalInt "execution_number" none).value
        asyncExecution := (e.optionalBool "async_execution").value }) := by
  simp only [readTask, Checked.value_bind, Checked.value_pure, said_of_requiredText,
    said_of_optionalText, listed_of_nameList]
  rfl

theorem value_readMethod (p : Nat) (fields : Fields) :
    let e := entry .methods p fields
    let v := Value.obj fields
    (readMethod p e).value = (takenName .methods p v, do
      let name ← said v "name"
      let kind ← kindSaid v
      return {
        name, kind
        crew := said v "crew"
        listenTo := listed v "listen_to"
        join := (e.word "logic" Join.ofText .all).value
        condition := said v "condition"
        routes := e.routes.value
        output := said v "output" }) := by
  simp only [readMethod, Checked.value_bind, said_of_requiredText, takenName, kindSaid]
  cases said (.obj fields) "type" with
  | none => cases said (.obj fields) "name" <;> simp
  | some text =>
      cases known : MethodKind.ofText text with
      | error u =>
          simp only [known, Checked.value_bind]
          cases said (.obj fields) "name" <;> simp [Entry.reject, Checked.reject, known, Except.toOption]
      | ok kind =>
          cases said (.obj fields) "name" <;>
            simp [known, said_of_optionalText, listed_of_nameList, Except.toOption]

theorem reads_agents : Reads .agents readAgent where
  name p fields := by
    simp only [readAgent, Checked.value_bind, Checked.value_pure, said_of_requiredText]
    rfl
  item p fields name named := by
    simp only [readAgent, Checked.value_bind, Checked.value_pure, said_of_requiredText, whole,
      Section.required, List.all_cons, List.all_nil]
    cases said (.obj fields) "role" <;> cases said (.obj fields) "goal" <;>
      cases said (.obj fields) "backstory" <;> rfl

theorem reads_tasks : Reads .tasks readTask where
  name p fields := by rw [value_readTask]
  item p fields name named := by
    simp only [value_readTask, whole, Section.required, List.all_cons, List.all_nil]
    cases said (.obj fields) "name" <;> cases said (.obj fields) "description" <;>
      cases said (.obj fields) "expected_output" <;> rfl

theorem reads_crews (agents : List AgentSpec) (tasks : List TaskSpec) :
    Reads .crews (readCrew agents tasks) where
  name p fields := by
    simp only [readCrew, Checked.value_bind, Checked.value_pure, said_of_optionalText]
    rfl
  item p fields name named := rfl

theorem reads_methods : Reads .methods readMethod where
  name p fields := by rw [value_readMethod]
  item p fields name named := by
    rw [takenName, Option.bind_eq_some_iff] at named
    obtain ⟨kind, kindly, named⟩ := named
    have typed : (said (.obj fields) "type").isSome := by
      rw [kindSaid, Option.bind_eq_some_iff] at kindly
      obtain ⟨text, said, _⟩ := kindly
      rw [said]
      rfl
    simp [value_readMethod, whole, Section.required, named, kindly, typed]

theorem said_of_readTask {t : TaskSpec} (item : (readTask p (entry .tasks p fields)).value.2 = some t) :
    said (.obj fields) "name" = some t.name ∧ said (.obj fields) "agent" = t.agent := by
  rw [value_readTask] at item
  simp only [Option.bind_eq_bind, Option.bind_eq_some_iff] at item
  obtain ⟨name, named, _, _, _, _, ⟨⟩⟩ := item
  exact ⟨named, rfl⟩

/-- A method that is read says what its entry says. -/
structure MethodSaid (v : Value) (m : MethodSpec) : Prop where
  kind : kindSaid v = some m.kind
  crew : said v "crew" = m.crew
  listens : listed v "listen_to" = m.listenTo
  condition : said v "condition" = m.condition
  routes : routed v = m.routes.targets
  output : said v "output" = m.output

theorem said_of_readMethod {m : MethodSpec}
    (item : (readMethod p (entry .methods p fields)).value.2 = some m) : MethodSaid (.obj fields) m := by
  rw [value_readMethod] at item
  simp only [Option.bind_eq_bind, Option.bind_eq_some_iff] at item
  obtain ⟨name, named, kind, kindly, ⟨⟩⟩ := item
  exact ⟨kindly, rfl, rfl, rfl, routed_of_routes.symm, rfl⟩

end Items

/-! ## Fields of the state -/

/-- The ways in which a field of the state is at fault: from the field on, the place of the fault, and the
fault. -/
inductive FieldFault (name : String) : Value → Path → Reason → Prop where
  | reserved {decl : Value} (reserved : isReservedField name = true) : FieldFault name decl [] .reservedField
  | untyped : FieldFault name .null [] .needsType
  | notText {spec : Fields} {v : Value} (typed : spec.get? "type" = some v) (other : v.text? = none) :
      FieldFault name (.obj spec) [.key "type"] .notString
  | unknownType {spec : Fields} {word : String} {u : UnknownWord}
      (typed : spec.get? "type" = some (.str word)) (unknown : FieldType.ofText word = .error u) :
      FieldFault name (.obj spec) [.key "type"] (.unknownWord u)
  | badDefault {spec : Fields} {word : String} {type : FieldType} {default : Value}
      (typed : spec.get? "type" = some (.str word)) (known : FieldType.ofText word = .ok type)
      (given : written (.obj spec) "default" = some default) (bad : type.accepts default = false) :
      FieldFault name (.obj spec) [.key "default"] (.defaultMismatch default type)

/-- A declaration of a field without any fault. -/
def Faultless (name : String) (decl : Value) : Prop := ∀ more reason, ¬FieldFault name decl more reason

theorem Checked.pure_bind {α β : Type} (a : α) (f : α → Checked β) : (pure a >>= f) = f a := rfl

/-- The type and default of a field are read, and a default that the type does not accept is the only fault
that is left. -/
def TypeRead (name : String) (decl : Value) (read : Checked (Option (FieldType × Option Value))) : Prop :=
  ∃ type default, read = pure (some (type, default)) ∧
    (∀ d ∈ default, type.accepts d = false → FieldFault name decl [.key "default"] (.defaultMismatch d type)) ∧
    (isReservedField name = false → (∀ d ∈ default, type.accepts d = true) → Faultless name decl)

theorem typeRead_of_bare {name : String} {decl : Value} {path : Path} (plain : decl.fields? = none)
    (shown : decl.isNull = false) : TypeRead name decl (readFieldType path decl) := by
  have read : ∃ type, FieldType.infer decl = some type ∧
      readFieldType path decl = pure (some (type, some decl)) := by
    cases decl with
    | null => cases shown
    | obj spec => cases plain
    | num n => cases n <;> exact ⟨_, rfl, rfl⟩
    | _ => exact ⟨_, rfl, rfl⟩
  obtain ⟨type, inferred, read⟩ := read
  refine ⟨type, some decl, read, by simp [FieldType.accepts_of_infer inferred], ?_⟩
  intro free _ more reason fault
  cases fault with
  | reserved reserved => simp [free] at reserved
  | untyped => cases shown
  | _ => cases plain

theorem readFieldType_eq (name : String) (decl : Value) (path : Path) :
    (∃ more reason, FieldFault name decl more reason ∧
      readFieldType path decl = Checked.reject .state (path ++ more) reason) ∨
    TypeRead name decl (readFieldType path decl) := by
  cases decl with
  | null => exact .inl ⟨[], _, .untyped, by simp [readFieldType]⟩
  | obj spec =>
      cases typed : Fields.get? spec "type" with
      | none =>
          refine .inr ⟨.map, some (.obj spec), by simp [readFieldType, typed], ?_, ?_⟩
          · simp [FieldType.accepts]
          · intro free _ more reason fault
            cases fault <;> simp_all
      | some v =>
          cases text : v.text? with
          | none =>
              refine .inl ⟨_, _, .notText typed text, ?_⟩
              cases v <;> simp_all [readFieldType, Value.text?]
          | some word =>
              obtain rfl : v = .str word := by
                cases v <;> simp_all [Value.text?]
              cases known : FieldType.ofText word with
              | error u => exact .inl ⟨_, _, .unknownType typed known, by simp [readFieldType, typed, known]⟩
              | ok type =>
                  refine .inr ⟨type, written (.obj spec) "default", ?_, ?_, ?_⟩
                  · simp only [readFieldType, typed, known]
                    rfl
                  · exact fun d given bad => .badDefault typed known given bad
                  · intro free accepted more reason fault
                    cases fault <;> simp_all
  | bool _ | num _ | str _ | arr _ => exact .inr (typeRead_of_bare rfl rfl)

/-- Reading a field tells of a fault and gets nothing, or gets the field, which is sound. -/
theorem readField_eq (name : String) (decl : Value) :
    (∃ more reason, FieldFault name decl more reason ∧
      readField name decl = Checked.reject .state (.key Section.state.key :: .key name :: more) reason) ∨
    ∃ f : FieldSpec, f.name = name ∧ Faultless name decl ∧ readField name decl = pure (some f) := by
  cases free : isReservedField name with
  | true => exact .inl ⟨[], .reservedField, .reserved free, by simp [readField, free]⟩
  | false =>
      rcases readFieldType_eq name decl [.key Section.state.key, .key name] with
        ⟨more, reason, fault, read⟩ | ⟨type, default, read, bad, sound⟩
      · refine .inl ⟨more, reason, fault, ?_⟩
        simp only [readField, free, read]
        rfl
      · cases default with
        | none =>
            refine .inr ⟨⟨name, type, none⟩, rfl, sound free (by simp), ?_⟩
            simp [readField, free, read, Checked.pure_bind]
        | some d =>
            cases accepted : type.accepts d with
            | true =>
                refine .inr ⟨⟨name, type, some d⟩, rfl, sound free (by simpa using accepted), ?_⟩
                simp [readField, free, read, Checked.pure_bind, accepted]
            | false =>
                refine .inl ⟨_, _, bad d rfl accepted, ?_⟩
                simp [readField, free, read, Checked.pure_bind, accepted]

/-- The fields of the state as a document declares them. -/
def stateOf (doc : Fields) : Fields := ((doc.get? Section.state.key).bind Value.fields?).getD []

section State
variable {doc decls : Fields} {P : Issue → Prop}

theorem each_readFields
    (fault : ∀ name decl more reason, (name, decl) ∈ decls → FieldFault name decl more reason →
      P ⟨.state, .key Section.state.key :: .key name :: more, reason⟩) : (readFields decls).Each P := by
  induction decls with
  | nil => exact Checked.each_pure _
  | cons head rest ih =>
      obtain ⟨name, decl⟩ := head
      simp only [readFields, Checked.each_bind, Checked.each_pure, and_true]
      refine ⟨?_, ih fun name decl more reason member => fault name decl more reason (.tail _ member)⟩
      rcases readField_eq name decl with ⟨more, reason, faulty, read⟩ | ⟨f, _, _, read⟩
      · rw [read, Checked.each_reject]
        exact fault name decl more reason (.head _) faulty
      · rw [read]
        exact Checked.each_pure _

theorem name_mem_readFields_iff {name : String} :
    (∃ f ∈ (readFields decls).value, f.name = name) ↔ ∃ decl, (name, decl) ∈ decls ∧ Faultless name decl := by
  induction decls with
  | nil => simp [readFields]
  | cons head rest ih =>
      obtain ⟨key, decl⟩ := head
      simp only [readFields, Checked.value_bind, Checked.value_pure, List.mem_append, or_and_right, exists_or,
        ih, List.mem_cons, Prod.mk.injEq]
      refine or_congr ?_ Iff.rfl
      rcases readField_eq key decl with ⟨more, reason, fault, read⟩ | ⟨f, named, sound, read⟩
      · simp only [read, Checked.reject, Option.toList_none, List.not_mem_nil, false_and, exists_false,
          false_iff]
        rintro ⟨_, ⟨rfl, rfl⟩, sound⟩
        exact sound more reason fault
      · simp only [read, Checked.value_pure, Option.toList_some, List.mem_singleton, exists_eq_left, named]
        constructor
        · rintro rfl
          exact ⟨decl, ⟨rfl, rfl⟩, sound⟩
        · rintro ⟨_, ⟨rfl, _⟩, _⟩
          rfl

theorem readState_eq (doc : Fields) :
    readState doc = readFields (stateOf doc) ∨
      (readState doc).value = (readFields (stateOf doc)).value ∧
        ∃ kind, (readState doc).issues = [⟨.state, [.key Section.state.key], .wrongKind "a mapping" kind⟩] := by
  unfold readState stateOf
  cases doc.get? Section.state.key with
  | none => exact .inl rfl
  | some v =>
      cases v with
      | null => exact .inl rfl
      | obj decls => exact .inl rfl
      | _ => exact .inr ⟨rfl, _, rfl⟩

theorem name_mem_readState_iff {name : String} :
    (∃ f ∈ (readState doc).value, f.name = name) ↔ ∃ decl, (name, decl) ∈ stateOf doc ∧ Faultless name decl := by
  rw [← name_mem_readFields_iff]
  rcases readState_eq doc with same | ⟨same, _⟩
  · rw [same]
  · rw [same]

theorem each_readState (shape : ∀ kind, P ⟨.state, [.key Section.state.key], .wrongKind "a mapping" kind⟩)
    (fault : ∀ name decl more reason, FieldFault name decl more reason →
      P ⟨.state, .key Section.state.key :: .key name :: more, reason⟩) : (readState doc).Each P := by
  rcases readState_eq doc with same | ⟨_, kind, told⟩
  · rw [same]
    exact each_readFields fun name decl more reason _ => fault name decl more reason
  · rw [Checked.Each, told]
    exact List.forall_mem_singleton.mpr (shape kind)

end State

end CrewFlow.Spec
