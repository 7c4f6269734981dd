import Mathlib
import CrewFlow.Proofs.Spec.Survivors
/-!
# Unknown references

When validation says of an agent, a crew, a method or a state field that it is unknown: exactly when a flow
has an entry, itself kept, that refers to the name, and nothing that is kept has the name. Of the crews with a
name one is always kept. An agent, a method or a field can be declared and left out for a fault of its own; then
it is called unknown besides.
-/
set_option autoImplicit false

namespace CrewFlow.Spec

open Json (Value Fields)

/-! ## References and what they name -/

/-- What a reference names. -/
inductive Referent where
  | agent
  | crew
  | method
  | field

/-- The section that declares what is referred to. -/
def Referent.area : Referent → Section
  | .agent => .agents
  | .crew => .crews
  | .method => .methods
  | .field => .state

/-- The section of the entries that refer to it. -/
def Referent.referrer : Referent → Section
  | .agent => .tasks
  | _ => .methods

/-- The names that an entry refers to. -/
def Referent.names (v : Value) : Referent → List String
  | .agent => (said v "agent").toList
  | .crew => (said v "crew").toList
  | .method => listed v "listen_to" ++ routed v
  | .field => (said v "output").toList

/-- What a reason says is unknown. -/
def Reason.unknown? : Reason → Option (Referent × String)
  | .unknownAgent _ role => some (.agent, role)
  | .unknownCrew name => some (.crew, name)
  | .unknownMethod name => some (.method, name)
  | .unknownField name => some (.field, name)
  | _ => none

section Names
variable (doc : Fields)

/-- The document declares the name: an entry of the section has it, or the state has it for a key. -/
def Declared (r : Referent) (name : String) : Prop :=
  match r with
  | .field => ∃ decl, (name, decl) ∈ stateOf doc
  | r => ∃ v ∈ entriesOf doc r.area, said v r.area.nameKey = some name

/-- What has the name is kept. -/
def Stands (r : Referent) (name : String) : Prop :=
  match r with
  | .field => ∃ decl, (name, decl) ∈ stateOf doc ∧ Faultless name decl
  | r => Keeps doc r.area name

/-- A kept entry refers to the name. -/
def Referenced (r : Referent) (name : String) : Prop :=
  ∃ p v, (entriesOf doc r.referrer)[p]? = some v ∧ kept r.referrer (entriesOf doc r.referrer) p = true ∧
    name ∈ r.names v

/-- What has the name is declared and left out: the first agent with the role lacks a goal or a backstory, all
methods of the name are without a kind, the fields of the name are at fault. Of crews this is never so. -/
def LeftOut (r : Referent) (name : String) : Prop :=
  match r with
  | .agent => ∃ (p : Nat) (v : Value), (entriesOf doc .agents)[p]? = some v ∧ said v "role" = some name ∧
      (∀ q < p, takenAt .agents (entriesOf doc .agents) q ≠ some name) ∧
      (said v "goal" = none ∨ said v "backstory" = none)
  | .crew => False
  | .method => (∃ v ∈ entriesOf doc .methods, said v "name" = some name) ∧
      ∀ v ∈ entriesOf doc .methods, said v "name" = some name → kindSaid v = none
  | .field => (∃ decl, (name, decl) ∈ stateOf doc) ∧
      ∀ decl, (name, decl) ∈ stateOf doc → ¬Faultless name decl

end Names

/-- Validation fails, and says of a name that it is unknown. -/
def CallsUnknown (doc : Parsed) (r : Referent) (name : String) : Prop :=
  ∃ issues, validate doc = .error (.schema issues) ∧ ∃ issue ∈ issues, issue.reason.unknown? = some (r, name)

def Silent (r : Referent) (name : String) (issue : Issue) : Prop := issue.reason.unknown? ≠ some (r, name)

section Silence
variable {doc : Fields} {r : Referent} {name : String}

/-! ## What is silent -/

theorem unknown?_of_broken {rule : Rule} {x : Option Value} {more : Path} {reason : Reason}
    (broken : Broken rule x more reason) : reason.unknown? = none := by
  induction broken with
  | notCount broken ih => exact ih
  | _ => rfl

theorem silent_of_faulty {s : Section} {e : Entry} {issue : Issue} (faulty : Faulty s e issue) :
    Silent r name issue := by
  obtain ⟨_, _, _, _, _, broken⟩ := faulty
  simp [Silent, unknown?_of_broken broken]

theorem silent_sectionItems (s : Section) : (sectionItems s doc).Each (Silent r name) := by
  unfold sectionItems
  split <;> simp [Silent, Reason.unknown?]

/-- A walk is silent when it is silent on finishing what is kept. -/
theorem silent_walk_iff {α β : Type} {s : Section} {read : Nat → Entry → Checked (Option String × Option α)}
    {finish : Entry → α → Checked β} {raw : List Value} (reads : Reads s read)
    (reading : ∀ p e, (read p e).Each (Faulty s e)) :
    (walk s s.nameKey s.repetition read finish [] 0 raw).Each (Silent r name) ↔
      ∀ p fields a, Survives s read raw p fields a → (finish (entry s p fields) a).Each (Silent r name) := by
  refine each_walk_iff reads ?_ (fun p e => (reading p e).mono fun _ => silent_of_faulty) ?_
  · simp [Silent, Reason.unknown?]
  · cases s <;> simp [Silent, Section.repetition, Reason.unknown?]

theorem silent_readAgents : (readAgents doc).Each (Silent r name) := by
  rw [readAgents, Checked.each_bind]
  exact ⟨silent_sectionItems .agents,
    (silent_walk_iff reads_agents each_readAgent).mpr fun _ _ _ _ => Checked.each_pure _⟩

theorem silent_readTasks : (readTasks doc).Each (Silent r name) := by
  rw [readTasks, Checked.each_bind]
  exact ⟨silent_sectionItems .tasks,
    (silent_walk_iff reads_tasks each_readTask).mpr fun _ _ _ _ => Checked.each_pure _⟩

theorem silent_readCrews {agents : List AgentSpec} {tasks : List TaskSpec} :
    (readCrews agents tasks doc).Each (Silent r name) := by
  rw [readCrews, Checked.each_bind]
  exact ⟨silent_sectionItems .crews, (silent_walk_iff (reads_crews agents tasks)
    (each_readCrew agents tasks)).mpr fun _ _ _ _ => Checked.each_pure _⟩

theorem unknown?_of_fieldFault {key : String} {decl : Value} {more : Path} {reason : Reason}
    (fault : FieldFault key decl more reason) : reason.unknown? = none := by
  cases fault <;> rfl

theorem silent_readState : (readState doc).Each (Silent r name) := by
  refine each_readState (fun _ => ?_) fun key decl more reason fault => ?_
  · simp [Silent, Reason.unknown?]
  · simp [Silent, unknown?_of_fieldFault fault]

end Silence

/-! ## What is told -/

section Telling
variable {doc : Fields} {r : Referent} {name : String}

theorem silent_reportIf_iff {fault : Bool} {s : Section} {path : Path} {reason : Reason} :
    (Checked.reportIf fault s path reason).Each (Silent r name) ↔
      (reason.unknown? = some (r, name) → fault = false) := by
  rw [Checked.each_reportIf]
  cases fault <;> simp [Silent]

theorem found_iff {α : Type} {items : List α} {named : α → String} {kind : Referent} {wanted : String} :
    (some (kind, wanted) = some (r, name) → (!items.any fun a => named a == wanted) = false) ↔
      (r = kind → some wanted = some name → ∃ a ∈ items, named a = name) := by
  constructor
  · rintro found rfl ⟨⟩
    simpa using found rfl
  · rintro found ⟨⟩
    simpa using found rfl rfl

theorem silent_checkOwners_iff {agents : List AgentSpec} {tasks : List TaskSpec} {i : Nat} :
    (checkOwners agents i tasks).Each (Silent r name) ↔
      ∀ t ∈ tasks, r = .agent → t.agent = some name → ∃ a ∈ agents, a.role = name := by
  induction tasks generalizing i with
  | nil => simp [checkOwners]
  | cons t ts ih =>
      rw [List.forall_mem_cons, ← ih (i := i + 1)]
      cases owned : t.agent with
      | none => simp [checkOwners, owned]
      | some role =>
          simp only [checkOwners, owned, Checked.each_bind, silent_reportIf_iff, Reason.unknown?, found_iff]

theorem silent_finishMethod_iff {crews : List CrewSpec} {state : List FieldSpec} {e : Entry}
    {m : MethodSpec} :
    (finishMethod crews state e m).Each (Silent r name) ↔
      (r = .crew → m.crew = some name → ∃ c ∈ crews, c.name = name) ∧
      (r = .field → m.output = some name → ∃ f ∈ state, f.name = name) := by
  simp only [finishMethod, Checked.each_bind, silent_reportIf_iff]
  cases m.crew <;> cases m.output <;>
    simp only [Checked.each_bind, Checked.each_pure, silent_reportIf_iff, Reason.unknown?, found_iff,
      reduceCtorEq, false_implies, implies_true, and_true, true_and]

theorem all_found_iff {names wanted : List String} {kind : Referent} :
    (∀ a ∈ wanted, some (kind, a) = some (r, name) → (!names.contains a) = false) ↔
      (r = kind → name ∈ wanted → name ∈ names) := by
  constructor
  · rintro found rfl member
    simpa using found name member rfl
  · rintro found a member ⟨⟩
    simpa using found rfl member

theorem silent_checkTargets_iff {names : List String} {methods : List MethodSpec} {i : Nat} :
    (checkTargets names i methods).Each (Silent r name) ↔
      ∀ m ∈ methods, r = .method → name ∈ m.listenTo ++ m.routes.targets → name ∈ names := by
  induction methods generalizing i with
  | nil => simp [checkTargets]
  | cons m ms ih =>
      rw [List.forall_mem_cons, ← ih (i := i + 1)]
      simp only [checkTargets, Checked.each_bind, List.forM_eq_forM, Checked.each_forM, silent_reportIf_iff,
        Reason.unknown?, all_found_iff, List.mem_append]
      tauto

theorem silent_readMethods_iff {crews : List CrewSpec} {state : List FieldSpec} :
    (readMethods crews state doc).Each (Silent r name) ↔
      ∀ p fields m, Survives .methods readMethod (entriesOf doc .methods) p fields m →
        ((r = .crew → m.crew = some name → ∃ c ∈ crews, c.name = name) ∧
          (r = .field → m.output = some name → ∃ f ∈ state, f.name = name)) ∧
        (r = .method → name ∈ m.listenTo ++ m.routes.targets → Keeps doc .methods name) := by
  have empty (none : entriesOf doc .methods = []) (p : Nat) (fields : Fields) (m : MethodSpec) :
      ¬Survives .methods readMethod (entriesOf doc .methods) p fields m := by
    intro survives
    simpa [none] using survives.here
  unfold readMethods
  split
  · next found =>
      have none : entriesOf doc .methods = [] := by rw [entriesOf_eq, found]; rfl
      exact iff_of_true (Checked.each_pure _) fun p fields m survives => absurd survives (empty none p fields m)
  · next items found =>
      have entries : entriesOf doc .methods = items := by rw [entriesOf_eq, found]; rfl
      subst entries
      rw [Checked.each_bind, Checked.each_bind, silent_checkTargets_iff]
      constructor
      · rintro ⟨walked, targets, _⟩ p fields m survives
        have finished := (silent_walk_iff reads_methods each_readMethod).mp walked p fields m survives
        refine ⟨silent_finishMethod_iff.mp finished, fun method refers => ?_⟩
        have member := (mem_walk_iff reads_methods).mpr
          ⟨p, fields, m, survives, value_finishMethod crews state (entry .methods p fields) m⟩
        exact name_mem_methods_iff.mp (List.mem_map.mp (targets m member method refers))
      · intro each
        refine ⟨(silent_walk_iff reads_methods each_readMethod).mpr fun p fields m survives =>
          silent_finishMethod_iff.mpr (each p fields m survives).1, ?_, ?_⟩
        · intro m member method refers
          obtain ⟨p, fields, a, survives, same⟩ := (mem_walk_iff reads_methods).mp member
          obtain rfl : a = m := (value_finishMethod crews state _ a).symm.trans same
          exact List.mem_map.mpr (name_mem_methods_iff.mpr ((each p fields a survives).2 method refers))
        · split
          · simp [Silent, Reason.unknown?]
          · exact Checked.each_pure _
  · next v _ _ found =>
      have none : entriesOf doc .methods = [] := by
        rw [entriesOf_eq, found]
        cases v <;> simp_all [Value.items?]
      refine iff_of_true ?_ fun p fields m survives => absurd survives (empty none p fields m)
      simp [Silent, Reason.unknown?]

/-! ## Documents -/

/-- The names that the kept entries refer to are those that what is read from them refers to. -/
theorem referenced_iff {α : Type} {read : Nat → Entry → Checked (Option String × Option α)}
    (reads : Reads r.referrer read) :
    Referenced doc r name ↔ ∃ p fields a, Survives r.referrer read (entriesOf doc r.referrer) p fields a ∧
      name ∈ r.names (.obj fields) := by
  constructor
  · rintro ⟨p, v, here, keeps, refers⟩
    obtain ⟨fields, a, survives⟩ := exists_survives reads keeps
    obtain rfl := Option.some.inj (here.symm.trans survives.here)
    exact ⟨p, fields, a, survives, refers⟩
  · rintro ⟨p, fields, a, survives, refers⟩
    exact ⟨p, _, survives.here, survives.keeps, refers⟩

theorem silent_owners_iff :
    (checkOwners (readAgents doc).value 0 (readTasks doc).value).Each (Silent .agent name) ↔
      (Referenced doc .agent name → Stands doc .agent name) := by
  have read (t : TaskSpec) : t ∈ (readTasks doc).value ↔
      ∃ p fields, Survives .tasks readTask (entriesOf doc .tasks) p fields t := by
    rw [readTasks, Checked.value_bind, (points_of_sectionItems doc .tasks).1]
    refine (mem_walk_iff reads_tasks).trans ?_
    simp
  rw [silent_checkOwners_iff, referenced_iff (r := .agent) reads_tasks]
  constructor
  · rintro owned ⟨p, fields, t, survives, refers⟩
    have agent : t.agent = some name := by
      simpa [Referent.names, (said_of_readTask survives.item).2] using refers
    exact role_mem_readAgents_iff.mp (owned t ((read t).mpr ⟨p, fields, survives⟩) rfl agent)
  · intro stands t member _ agent
    obtain ⟨p, fields, survives⟩ := (read t).mp member
    refine role_mem_readAgents_iff.mpr (stands ⟨p, fields, t, survives, ?_⟩)
    simp [Referent.names, (said_of_readTask survives.item).2, agent]

theorem stands_iff_found {agents : List AgentSpec} {tasks : List TaskSpec} {v : Value} {m : MethodSpec}
    (method : MethodSaid v m) (other : r ≠ .agent) :
    (name ∈ r.names v → Stands doc r name) ↔
      ((r = .crew → m.crew = some name → ∃ c ∈ (readCrews agents tasks doc).value, c.name = name) ∧
        (r = .field → m.output = some name → ∃ f ∈ (readState doc).value, f.name = name)) ∧
      (r = .method → name ∈ m.listenTo ++ m.routes.targets → Keeps doc .methods name) := by
  rw [name_mem_readCrews_iff, name_mem_readState_iff]
  cases r with
  | agent => exact absurd rfl other
  | crew => simp [Referent.names, Stands, Referent.area, method.crew]
  | method => simp [Referent.names, Stands, Referent.area, method.listens, method.routes]
  | field => simp [Referent.names, Stands, method.output]

theorem silent_methods_iff {agents : List AgentSpec} {tasks : List TaskSpec} (other : r ≠ .agent) :
    (readMethods (readCrews agents tasks doc).value (readState doc).value doc).Each (Silent r name) ↔
      (Referenced doc r name → Stands doc r name) := by
  have referrer : r.referrer = .methods := by
    cases r with
    | agent => exact absurd rfl other
    | _ => rfl
  have refers : Referenced doc r name ↔ ∃ p fields m,
      Survives .methods readMethod (entriesOf doc .methods) p fields m ∧ name ∈ r.names (.obj fields) := by
    rw [← referrer]
    exact referenced_iff (referrer ▸ reads_methods)
  rw [silent_readMethods_iff, refers]
  constructor
  · rintro each ⟨p, fields, m, survives, refers⟩
    exact (stands_iff_found (said_of_readMethod survives.item) other).mpr (each p fields m survives) refers
  · intro stands p fields m survives
    exact (stands_iff_found (said_of_readMethod survives.item) other).mp fun refers =>
      stands ⟨p, fields, m, survives, refers⟩

theorem silent_checkDocument_iff {doc : Parsed} :
    (checkDocument doc).Each (Silent r name) ↔
      (doc.orchestration = .flow → Referenced doc.fields r name → Stands doc.fields r name) := by
  obtain ⟨fields, orchestration⟩ := doc
  simp only [checkDocument, Checked.each_bind, silent_readAgents, silent_readTasks, silent_readCrews, true_and]
  cases orchestration with
  | crew => simp
  | flow =>
      simp only [Checked.each_bind, silent_readState, true_and, Checked.each_pure, and_true, forall_const]
      by_cases owner : r = .agent
      · subst owner
        have methods : (readMethods (readCrews (readAgents fields).value (readTasks fields).value fields).value
            (readState fields).value fields).Each (Silent .agent name) :=
          silent_readMethods_iff.mpr (by simp)
        rw [silent_owners_iff, and_iff_left methods]
      · have owners : (checkOwners (readAgents fields).value 0 (readTasks fields).value).Each (Silent r name) :=
          silent_checkOwners_iff.mpr fun _ _ agent => absurd agent owner
        rw [silent_methods_iff owner, and_iff_right owners]

theorem callsUnknown_iff {doc : Parsed} :
    CallsUnknown doc r name ↔ ¬(checkDocument doc).Each (Silent r name) := by
  have told : ¬(checkDocument doc).Each (Silent r name) ↔
      ∃ issue ∈ (checkDocument doc).issues, issue.reason.unknown? = some (r, name) := by
    simp [Checked.Each, Silent]
  rw [told]
  constructor
  · rintro ⟨issues, failed, unknown⟩
    rwa [issues_of_validate failed]
  · rintro ⟨issue, member, unknown⟩
    refine ⟨(checkDocument doc).issues, ?_, issue, member, unknown⟩
    have found : (checkDocument doc).issues.isEmpty = false := by
      rw [List.isEmpty_eq_false_iff]
      exact List.ne_nil_of_mem member
    simp [validate, found]

end Telling

/-! ## What is declared and left out -/

section Declarations
variable {doc : Fields} {r : Referent} {name : String}

theorem exists_first {s : Section} {raw : List Value} {p : Nat} (taken : takenAt s raw p = some name) :
    ∃ first v, raw[first]? = some v ∧ takenName s first v = some name ∧
      ∀ q < first, takenAt s raw q ≠ some name := by
  classical
  have exists_taken : ∃ q, takenAt s raw q = some name := ⟨p, taken⟩
  obtain ⟨v, here, named⟩ := Option.bind_eq_some_iff.mp (Nat.find_spec exists_taken)
  exact ⟨Nat.find exists_taken, v, here, named, fun q earlier => Nat.find_min exists_taken earlier⟩

/-- A name is kept exactly when the first entry that takes it is whole. -/
theorem keeps_iff_whole {s : Section} {p : Nat} {v : Value} (here : (entriesOf doc s)[p]? = some v)
    (named : takenName s p v = some name) (fresh : ∀ q < p, takenAt s (entriesOf doc s) q ≠ some name) :
    Keeps doc s name ↔ whole s v = true := by
  have taken : takenAt s (entriesOf doc s) p = some name := by rw [takenAt, here, Option.bind_some, named]
  constructor
  · rintro ⟨q, again, keeps⟩
    obtain ⟨w, there, also⟩ := Option.bind_eq_some_iff.mp again
    obtain ⟨full, only⟩ := (kept_iff there also).mp keeps
    rcases Nat.lt_trichotomy p q with before | rfl | after
    · exact absurd taken (only p before)
    · rwa [Option.some.inj (here.symm.trans there)]
    · exact absurd again (fresh q after)
  · exact fun full => ⟨p, taken, (kept_iff here named).mpr ⟨full, fresh⟩⟩

theorem keeps_iff_taken {s : Section} (full : ∀ p v name, takenName s p v = some name → whole s v = true) :
    Keeps doc s name ↔ ∃ p, takenAt s (entriesOf doc s) p = some name := by
  constructor
  · rintro ⟨p, taken, _⟩
    exact ⟨p, taken⟩
  · rintro ⟨p, taken⟩
    obtain ⟨first, v, here, named, fresh⟩ := exists_first taken
    exact (keeps_iff_whole here named fresh).mpr (full first v name named)

theorem leftOut_agent_iff : Declared doc .agent name ∧ ¬Stands doc .agent name ↔ LeftOut doc .agent name := by
  have missing {v : Value} (role : said v "role" = some name) :
      whole .agents v = true ↔ ¬(said v "goal" = none ∨ said v "backstory" = none) := by
    cases goal : said v "goal" <;> cases story : said v "backstory" <;>
      simp [whole, Section.required, role, goal, story]
  constructor
  · rintro ⟨⟨v, (member : v ∈ entriesOf doc .agents), (role : said v "role" = some name)⟩, out⟩
    obtain ⟨p, here⟩ := List.mem_iff_getElem?.mp member
    have taken : takenAt .agents (entriesOf doc .agents) p = some name := by rw [takenAt, here]; exact role
    obtain ⟨first, v, here, role, fresh⟩ := exists_first taken
    refine ⟨first, v, here, role, fresh, ?_⟩
    by_contra full
    exact out ((keeps_iff_whole here role fresh).mpr ((missing role).mpr full))
  · rintro ⟨p, v, here, role, fresh, lacks⟩
    refine ⟨⟨v, List.mem_of_getElem? here, role⟩, fun stands => ?_⟩
    exact (missing role).mp ((keeps_iff_whole here role fresh).mp stands) lacks

theorem leftOut_crew_iff : Declared doc .crew name ∧ ¬Stands doc .crew name ↔ LeftOut doc .crew name := by
  refine iff_of_false ?_ id
  rintro ⟨⟨v, (member : v ∈ entriesOf doc .crews), (named : said v "name" = some name)⟩, out⟩
  obtain ⟨p, here⟩ := List.mem_iff_getElem?.mp member
  have taken : takenAt .crews (entriesOf doc .crews) p = some name := by
    rw [takenAt, here]
    cases shape : v.fields? with
    | none => simp [said, written, Value.get?, shape] at named
    | some fields => simp [takenName, shape, named]
  exact out ((keeps_iff_taken fun _ _ _ _ => rfl).mpr ⟨p, taken⟩)

theorem keeps_method_iff :
    Keeps doc .methods name ↔ ∃ v ∈ entriesOf doc .methods, said v "name" = some name ∧ kindSaid v ≠ none := by
  have full (p : Nat) (v : Value) (name : String) (named : takenName .methods p v = some name) :
      whole .methods v = true := by
    obtain ⟨kind, kindly, named⟩ := Option.bind_eq_some_iff.mp named
    obtain ⟨text, typed, _⟩ := Option.bind_eq_some_iff.mp kindly
    simp [whole, Section.required, named, typed]
  rw [keeps_iff_taken full]
  constructor
  · rintro ⟨p, taken⟩
    obtain ⟨v, here, named⟩ := Option.bind_eq_some_iff.mp taken
    obtain ⟨kind, kindly, named⟩ := Option.bind_eq_some_iff.mp named
    exact ⟨v, List.mem_of_getElem? here, named, by simp [kindly]⟩
  · rintro ⟨v, member, named, kindly⟩
    obtain ⟨p, here⟩ := List.mem_iff_getElem?.mp member
    obtain ⟨kind, kindly⟩ := Option.ne_none_iff_exists'.mp kindly
    exact ⟨p, by simp [takenAt, here, takenName, kindly, named]⟩

theorem leftOut_method_iff :
    Declared doc .method name ∧ ¬Stands doc .method name ↔ LeftOut doc .method name := by
  have stands : Stands doc .method name ↔ _ := keeps_method_iff
  refine and_congr Iff.rfl ?_
  rw [stands]
  simp

theorem leftOut_field_iff : Declared doc .field name ∧ ¬Stands doc .field name ↔ LeftOut doc .field name := by
  simp [Declared, Stands, LeftOut]

theorem leftOut_iff : Declared doc r name ∧ ¬Stands doc r name ↔ LeftOut doc r name :=
  match r with
  | .agent => leftOut_agent_iff
  | .crew => leftOut_crew_iff
  | .method => leftOut_method_iff
  | .field => leftOut_field_iff

end Declarations

/-- A name is called unknown exactly when a flow refers to it in a kept entry and nothing of that name is kept.
So a declared name is called unknown exactly when what has it is left out, and a declared crew never is. -/
theorem called_unknown_iff (doc : Parsed) (r : Referent) (name : String) :
    (CallsUnknown doc r name ↔
      doc.orchestration = .flow ∧ Referenced doc.fields r name ∧ ¬Stands doc.fields r name) ∧
    (CallsUnknown doc r name ∧ Declared doc.fields r name ↔
      doc.orchestration = .flow ∧ Referenced doc.fields r name ∧ LeftOut doc.fields r name) := by
  have unknown : CallsUnknown doc r name ↔
      doc.orchestration = .flow ∧ Referenced doc.fields r name ∧ ¬Stands doc.fields r name := by
    rw [callsUnknown_iff, silent_checkDocument_iff]
    simp only [Classical.not_imp]
  refine ⟨unknown, ?_⟩
  rw [unknown, ← leftOut_iff]
  constructor
  · rintro ⟨⟨flow, refers, out⟩, declared⟩
    exact ⟨flow, refers, declared, out⟩
  · rintro ⟨flow, refers, declared, out⟩
    exact ⟨⟨flow, refers, out⟩, declared⟩

def aimless : Parsed where
  fields :=
    [("agents", .arr [.obj [("role", .str "me"), ("backstory", .str "me"), ("tools", .arr [])]]),
    ("tasks", .arr [
      .obj [("name", .str "t"), ("description", .str "look"), ("expected_output", .str "it"),
        ("agent", .str "me"), ("tools", .arr []), ("context", .arr [])]]),
    ("crews", .arr [.obj [("name", .str "us")]])]
  orchestration := .flow

theorem validate_aimless :
    validate aimless = .error (.schema [⟨.agents, [.key "agents", .item 0, .key "goal"], .missing⟩,
      ⟨.tasks, [.key "tasks", .item 0, .key "agent"], .unknownAgent "t" "me"⟩]) := by
  rfl

/-- The agent is declared, and called unknown for want of a goal. -/
theorem aimless_agent_called_unknown :
    ¬∀ (doc : Parsed) (r : Referent) (name : String),
      CallsUnknown doc r name → ¬Declared doc.fields r name := by
  intro true_to_document
  refine true_to_document aimless .agent "me" ⟨_, validate_aimless, _, .tail _ (.head _), rfl⟩ ?_
  exact ⟨_, .head _, by decide⟩

end CrewFlow.Spec
