import Mathlib
import CrewFlow.Proofs.Spec.Reading
/-!
# Where issues point

Every issue with the place of an entry in its path, and what it says of which entry. The walks through the
sections number the entries as the document lists them, and so does what they say. References are checked
after the walks, on what was kept: there the number is that of the kept entry among the kept ones.
-/
set_option autoImplicit false

namespace CrewFlow.Spec

open Json (Value Fields)

/-! ## What issues say of entries -/

/-- The entries of a section as a document lists them. -/
def entriesOf (doc : Fields) (s : Section) : List Value := ((doc.get? s.key).bind Value.items?).getD []

/-- What an issue says of the entry at a place, from the path behind the entry on, is so: the entry is no
mapping, breaks the rule of a field, repeats the name of an entry before it, lacks what a method of its kind
needs, or names the crew or the state field that is said to be unknown. -/
inductive Tells (raw : List Value) (p : Nat) (v : Value) : Section → Path → Reason → Prop where
  | shape {s : Section} (other : v.fields? = none) : Tells raw p v s [] (.wrongKind "a mapping" v.kind)
  | field {s : Section} {key : String} {rule : Rule} {more : Path} {reason : Reason}
      (ruled : (key, rule) ∈ s.rules) (broken : Broken rule (written v key) more reason) :
      Tells raw p v s (.key key :: more) reason
  | repeated {s : Section} {name : String} (named : takenName s p v = some name)
      (before : ∃ q < p, takenAt s raw q = some name) :
      Tells raw p v s [.key s.nameKey] (s.repetition name)
  | noPredecessor {kind : MethodKind} (said : kindSaid v = some kind) (behind : kind ≠ .start)
      (alone : listed v "listen_to" = []) : Tells raw p v .methods [.key "listen_to"] .noPredecessor
  | noCondition (router : kindSaid v = some .router) (unconditional : said v "condition" = none) :
      Tells raw p v .methods [.key "condition"] .noCondition
  | noRoute (router : kindSaid v = some .router) (nowhere : routed v = []) :
      Tells raw p v .methods [.key "routes"] .noRoute
  | unknownCrew {crew : String} (names : said v "crew" = some crew) :
      Tells raw p v .methods [.key "crew"] (.unknownCrew crew)
  | unknownField {output : String} (names : said v "output" = some output) :
      Tells raw p v .methods [.key "output"] (.unknownField output)

/-- An entry has the reference that an issue says leads nowhere: a task has the name and the agent, a method
listens or routes to the name. -/
inductive Refers (v : Value) : Section → Path → Reason → Prop where
  | agent {task role : String} (named : said v "name" = some task) (owned : said v "agent" = some role) :
      Refers v .tasks [.key "agent"] (.unknownAgent task role)
  | predecessor {name : String} (listens : name ∈ listed v "listen_to") :
      Refers v .methods [.key "listen_to"] (.unknownMethod name)
  | target {name : String} (routes : name ∈ routed v) :
      Refers v .methods [.key "routes"] (.unknownMethod name)

/-- An issue at a place says what is so of the entry at that place, or of a reference in the kept entry that
has the place as its number among the kept ones. -/
def Points (doc : Fields) (issue : Issue) : Prop :=
  ∀ (s : Section) (i : Nat) (rest : Path), issue.path = .key s.key :: .item i :: rest →
    (∃ v, (entriesOf doc s)[i]? = some v ∧ Tells (entriesOf doc s) i v s rest issue.reason) ∨
    ∃ p v, (entriesOf doc s)[p]? = some v ∧ Refers v s rest issue.reason ∧
      kept s (entriesOf doc s) p = true ∧ keptBefore s (entriesOf doc s) p = i

theorem Section.key_injective {s t : Section} (same : s.key = t.key) : s = t := by
  revert same
  cases s <;> cases t <;> decide

theorem path_injective {s t : Section} {i j : Nat} {rest more : Path}
    (same : (.key s.key :: .item i :: rest : Path) = .key t.key :: .item j :: more) :
    s = t ∧ i = j ∧ rest = more := by
  simp only [List.cons.injEq, PathStep.key.injEq, PathStep.item.injEq] at same
  exact ⟨Section.key_injective same.1, same.2⟩

section Points
variable {doc : Fields} {issue : Issue} {s : Section} {i : Nat} {v : Value} {rest : Path}

theorem points_of_short
    (short : ∀ (k : String) (i : Nat) (rest : Path), issue.path ≠ .key k :: .item i :: rest) :
    Points doc issue :=
  fun s i rest path => absurd path (short s.key i rest)

theorem points_of_tells (path : issue.path = .key s.key :: .item i :: rest)
    (here : (entriesOf doc s)[i]? = some v)
    (tells : Tells (entriesOf doc s) i v s rest issue.reason) : Points doc issue := by
  intro t j more other
  obtain ⟨rfl, rfl, rfl⟩ := path_injective (path.symm.trans other)
  exact .inl ⟨v, here, tells⟩

theorem points_of_refers {p : Nat} (path : issue.path = .key s.key :: .item i :: rest)
    (here : (entriesOf doc s)[p]? = some v) (refers : Refers v s rest issue.reason)
    (keeps : kept s (entriesOf doc s) p = true) (number : keptBefore s (entriesOf doc s) p = i) :
    Points doc issue := by
  intro t j more other
  obtain ⟨rfl, rfl, rfl⟩ := path_injective (path.symm.trans other)
  exact .inr ⟨p, v, here, refers, keeps, number⟩

end Points

/-! ## What the walks say -/

def Told (s : Section) (raw : List Value) (p : Nat) (v : Value) (issue : Issue) : Prop :=
  ∃ rest, issue.path = .key s.key :: .item p :: rest ∧ Tells raw p v s rest issue.reason

theorem value_finishMethod (crews : List CrewSpec) (state : List FieldSpec) (e : Entry) (m : MethodSpec) :
    (finishMethod crews state e m).value = m := by
  simp only [finishMethod, Checked.value_bind]
  cases m.crew <;> cases m.output <;> rfl

theorem each_finishMethod {crews : List CrewSpec} {state : List FieldSpec} {raw : List Value} {p : Nat}
    {fields : Fields} {m : MethodSpec} (method : MethodSaid (.obj fields) m) :
    (finishMethod crews state (entry .methods p fields) m).Each (Told .methods raw p (.obj fields)) := by
  have predecessor (behind : m.kind ≠ .start) (alone : m.listenTo = []) : Told .methods raw p (.obj fields)
      ⟨.methods, (entry .methods p fields).pathTo "listen_to", .noPredecessor⟩ :=
    ⟨_, rfl, .noPredecessor method.kind behind (method.listens.trans alone)⟩
  have condition (router : m.kind = .router) (unconditional : m.condition = none) :
      Told .methods raw p (.obj fields)
        ⟨.methods, (entry .methods p fields).pathTo "condition", .noCondition⟩ :=
    ⟨_, rfl, .noCondition (router ▸ method.kind) (method.condition.trans unconditional)⟩
  have route (router : m.kind = .router) (nowhere : m.routes.targets = []) :
      Told .methods raw p (.obj fields)
        ⟨.methods, (entry .methods p fields).pathTo "routes", .noRoute⟩ :=
    ⟨_, rfl, .noRoute (router ▸ method.kind) (method.routes.trans nowhere)⟩
  have crew (crew : String) (named : m.crew = some crew) : Told .methods raw p (.obj fields)
      ⟨.methods, (entry .methods p fields).pathTo "crew", .unknownCrew crew⟩ :=
    ⟨_, rfl, .unknownCrew (method.crew.trans named)⟩
  have output (output : String) (named : m.output = some output) : Told .methods raw p (.obj fields)
      ⟨.methods, (entry .methods p fields).pathTo "output", .unknownField output⟩ :=
    ⟨_, rfl, .unknownField (method.output.trans named)⟩
  simp only [finishMethod, Checked.each_bind, Checked.each_reportIf]
  refine ⟨fun lacks => ?_, fun lacks => ?_, fun lacks => ?_, ?_⟩
  · simp only [Bool.and_eq_true, decide_eq_true_eq, List.isEmpty_iff] at lacks
    exact predecessor lacks.1 lacks.2
  · simp only [Bool.and_eq_true, decide_eq_true_eq, Option.isNone_iff_eq_none] at lacks
    exact condition lacks.1 lacks.2
  · simp only [Bool.and_eq_true, decide_eq_true_eq, List.isEmpty_iff] at lacks
    exact route lacks.1 lacks.2
  · cases named : m.crew with
    | none =>
        cases stored : m.output with
        | none => simp
        | some field => simp [output field stored]
    | some name =>
        cases stored : m.output with
        | none => simp [crew name named]
        | some field => simp [crew name named, output field stored]

section Walks
variable {α β : Type} {s : Section} {read : Nat → Entry → Checked (Option String × Option α)}
  {finish : Entry → α → Checked β} {doc : Fields}

theorem points_of_walk (reads : Reads s read) (reading : ∀ p e, (read p e).Each (Faulty s e))
    (finishing : ∀ raw p fields a, (read p (entry s p fields)).value.2 = some a →
      (finish (entry s p fields) a).Each (Told s raw p (.obj fields))) :
    (walk s s.nameKey s.repetition read finish [] 0 (entriesOf doc s)).Each (Points doc) := by
  intro issue told
  obtain ⟨p, blamed⟩ := each_walk reads List.drop_zero seen_nil issue told
  cases blamed with
  | shape here other => exact points_of_tells rfl here (.shape other)
  | reading here told =>
      obtain ⟨key, rule, ruled, more, path, broken⟩ := reading p _ issue told
      exact points_of_tells path here (.field ruled broken)
  | repeated here named before => exact points_of_tells rfl here (.repeated named before)
  | finishing here item told =>
      obtain ⟨rest, path, tells⟩ := finishing (entriesOf doc s) p _ _ item issue told
      exact points_of_tells path here tells

/-- What is read from a kept entry, once it stands among what is kept. -/
theorem kept_of_walk (reads : Reads s read) {j : Nat} {b : β}
    (found : (walk s s.nameKey s.repetition read finish [] 0 (entriesOf doc s)).value[j]? = some b) :
    ∃ p fields a, (entriesOf doc s)[p]? = some (.obj fields) ∧
      (read p (entry s p fields)).value.2 = some a ∧ b = (finish (entry s p fields) a).value ∧
      kept s (entriesOf doc s) p = true ∧ keptBefore s (entriesOf doc s) p = j := by
  obtain ⟨p, yields, number⟩ := yields_of_walk reads List.drop_zero seen_nil found
  cases yields with
  | item here item keeps =>
      refine ⟨p, _, _, here, item, rfl, keeps, ?_⟩
      rw [number]
      exact Nat.zero_add j

end Walks

/-! ## Sections -/

section Sections
variable {doc : Fields}

theorem entriesOf_eq (s : Section) :
    entriesOf doc s = (((doc.get? s.key).filter fun v => !v.isNull).bind Value.items?).getD [] := by
  unfold entriesOf
  cases doc.get? s.key with
  | none => rfl
  | some v => cases v <;> rfl

/-- The items of a section are its entries; what is said of the section as a whole points at none. -/
theorem points_of_sectionItems (doc : Fields) (s : Section) :
    (sectionItems s doc).value = entriesOf doc s ∧ (sectionItems s doc).Each (Points doc) := by
  have short (reason : Reason) (items : List Value) :
      (do Checked.report s [.key s.key] reason; return items : Checked (List Value)).Each (Points doc) := by
    rw [Checked.each_bind, Checked.each_report]
    exact ⟨points_of_short (by simp), Checked.each_pure items⟩
  rw [entriesOf_eq]
  unfold sectionItems
  split
  · next found => exact ⟨by rw [found]; rfl, Checked.each_pure _⟩
  · next found => exact ⟨by rw [found]; rfl, short .noEntries []⟩
  · next found => exact ⟨by rw [found]; rfl, short .sectionMissing []⟩
  · next v entries none found =>
      refine ⟨?_, short (.wrongKind "a list" v.kind) []⟩
      rw [found]
      cases v with
      | arr items => cases items <;> simp_all
      | _ => rfl

theorem points_of_readAgents : (readAgents doc).Each (Points doc) := by
  obtain ⟨items, each⟩ := points_of_sectionItems doc .agents
  rw [readAgents, Checked.each_bind, items]
  exact ⟨each, points_of_walk reads_agents each_readAgent fun _ _ _ _ _ => Checked.each_pure _⟩

theorem points_of_readTasks : (readTasks doc).Each (Points doc) := by
  obtain ⟨items, each⟩ := points_of_sectionItems doc .tasks
  rw [readTasks, Checked.each_bind, items]
  exact ⟨each, points_of_walk reads_tasks each_readTask fun _ _ _ _ _ => Checked.each_pure _⟩

theorem points_of_readCrews {agents : List AgentSpec} {tasks : List TaskSpec} :
    (readCrews agents tasks doc).Each (Points doc) := by
  obtain ⟨items, each⟩ := points_of_sectionItems doc .crews
  rw [readCrews, Checked.each_bind, items]
  exact ⟨each, points_of_walk (reads_crews agents tasks) (each_readCrew agents tasks)
    fun _ _ _ _ _ => Checked.each_pure _⟩

theorem points_of_readState : (readState doc).Each (Points doc) :=
  each_readState (fun _ => points_of_short (by simp)) fun _ _ _ _ _ => points_of_short (by simp)

/-! ## References -/

/-- The check of owners numbers the tasks that it is given. -/
theorem each_checkOwners {agents : List AgentSpec} {P : Issue → Prop} : ∀ {tasks : List TaskSpec} {i : Nat},
    (∀ j t role, tasks[j]? = some t → t.agent = some role →
      P ⟨.tasks, [.key Section.tasks.key, .item (i + j), .key "agent"], .unknownAgent t.name role⟩) →
    (checkOwners agents i tasks).Each P := by
  intro tasks
  induction tasks with
  | nil => exact fun _ => Checked.each_pure _
  | cons t ts ih =>
      intro i owners
      have later : (checkOwners agents (i + 1) ts).Each P := by
        refine ih fun j t role found owned => ?_
        rw [Nat.succ_add_eq_add_succ]
        exact owners (j + 1) t role found owned
      cases owned : t.agent with
      | none => simpa [checkOwners, owned] using later
      | some role =>
          simp only [checkOwners, owned, Checked.each_bind, Checked.each_reportIf]
          exact ⟨fun _ => owners 0 t role rfl owned, later⟩

theorem each_checkTargets {names : List String} {P : Issue → Prop} : ∀ {methods : List MethodSpec} {i : Nat},
    (∀ j m, methods[j]? = some m →
      (∀ name ∈ m.listenTo,
        P ⟨.methods, [.key Section.methods.key, .item (i + j), .key "listen_to"], .unknownMethod name⟩) ∧
      ∀ name ∈ m.routes.targets,
        P ⟨.methods, [.key Section.methods.key, .item (i + j), .key "routes"], .unknownMethod name⟩) →
    (checkTargets names i methods).Each P := by
  intro methods
  induction methods with
  | nil => exact fun _ => Checked.each_pure _
  | cons m ms ih =>
      intro i named
      have later : (checkTargets names (i + 1) ms).Each P := by
        refine ih fun j m found => ?_
        rw [Nat.succ_add_eq_add_succ]
        exact named (j + 1) m found
      obtain ⟨listens, routes⟩ := named 0 m rfl
      simp only [checkTargets, Checked.each_bind, List.forM_eq_forM, Checked.each_forM, Checked.each_reportIf]
      exact ⟨fun name member _ => listens name member, fun name member _ => routes name member, later⟩

theorem points_of_checkOwners {agents : List AgentSpec} :
    (checkOwners agents 0 (readTasks doc).value).Each (Points doc) := by
  have read : (readTasks doc).value =
      (walk .tasks Section.tasks.nameKey Section.tasks.repetition readTask (fun _ t => pure t) [] 0
        (entriesOf doc .tasks)).value := by
    rw [readTasks, Checked.value_bind, (points_of_sectionItems doc .tasks).1]
    rfl
  -- The place of a task in the check is its number among what the walk keeps.
  refine each_checkOwners fun j t role found owned => ?_
  rw [read] at found
  obtain ⟨p, fields, a, here, item, rfl, keeps, number⟩ := kept_of_walk reads_tasks found
  obtain ⟨name, agent⟩ := said_of_readTask item
  refine points_of_refers rfl here (.agent name (agent.trans owned)) keeps ?_
  rw [number, Nat.zero_add]

theorem points_of_checkTargets {crews : List CrewSpec} {state : List FieldSpec} {names : List String} :
    (checkTargets names 0 (walk .methods Section.methods.nameKey Section.methods.repetition readMethod
      (finishMethod crews state) [] 0 (entriesOf doc .methods)).value).Each (Points doc) := by
  refine each_checkTargets fun j m found => ?_
  obtain ⟨p, fields, a, here, item, rfl, keeps, number⟩ := kept_of_walk reads_methods found
  have method := said_of_readMethod item
  have place : keptBefore .methods (entriesOf doc .methods) p = 0 + j := by rw [number, Nat.zero_add]
  rw [value_finishMethod]
  constructor
  · intro name member
    exact points_of_refers rfl here (.predecessor (method.listens ▸ member)) keeps place
  · intro name member
    exact points_of_refers rfl here (.target (method.routes ▸ member)) keeps place

theorem points_of_readMethods {crews : List CrewSpec} {state : List FieldSpec} :
    (readMethods crews state doc).Each (Points doc) := by
  unfold readMethods
  split
  · exact Checked.each_pure _
  · next items found =>
      have entries : entriesOf doc .methods = items := by
        rw [entriesOf_eq, found]
        rfl
      subst entries
      rw [Checked.each_bind, Checked.each_bind]
      refine ⟨points_of_walk reads_methods each_readMethod fun raw p fields m item =>
        each_finishMethod (said_of_readMethod item), points_of_checkTargets, ?_⟩
      split
      · rw [Checked.each_bind, Checked.each_report]
        exact ⟨points_of_short (by simp), Checked.each_pure _⟩
      · exact Checked.each_pure _
  · rw [Checked.each_bind, Checked.each_report]
    exact ⟨points_of_short (by simp), Checked.each_pure _⟩

end Sections

/-! ## Documents -/

theorem points_of_checkDocument (doc : Parsed) : (checkDocument doc).Each (Points doc.fields) := by
  obtain ⟨fields, orchestration⟩ := doc
  simp only [checkDocument, Checked.each_bind]
  refine ⟨points_of_readAgents, points_of_readTasks, points_of_readCrews, ?_⟩
  cases orchestration with
  | crew => exact Checked.each_pure _
  | flow =>
      simp only [Checked.each_bind]
      exact ⟨points_of_checkOwners, points_of_readState, points_of_readMethods, Checked.each_pure _⟩

theorem issues_of_validate {doc : Parsed} {issues : List Issue}
    (failed : validate doc = .error (.schema issues)) : (checkDocument doc).issues = issues := by
  unfold validate at failed
  dsimp only at failed
  split at failed
  · cases failed
  · injection failed with same
    injection same

/-- An issue with the place of an entry in its path says what is so of the entry at that place. The only
exceptions are references that lead nowhere: they are of a kept entry, with its number among the kept ones for
a place, and this is its place exactly when every entry before it is kept. -/
theorem issues_point_at_entries {doc : Parsed} {issues : List Issue}
    (failed : validate doc = .error (.schema issues)) {issue : Issue} (told : issue ∈ issues)
    {s : Section} {i : Nat} {rest : Path} (path : issue.path = .key s.key :: .item i :: rest) :
    let raw := entriesOf doc.fields s
    (∃ v, raw[i]? = some v ∧ Tells raw i v s rest issue.reason) ∨
      ∃ p v, raw[p]? = some v ∧ Refers v s rest issue.reason ∧
        kept s raw p = true ∧ keptBefore s raw p = i ∧ (p = i ↔ ∀ q < p, kept s raw q = true) := by
  intro raw
  rw [← issues_of_validate failed] at told
  rcases points_of_checkDocument doc issue told s i rest path with direct | ⟨p, v, here, refers, keeps, number⟩
  · exact .inl direct
  · refine .inr ⟨p, v, here, refers, keeps, number, ?_⟩
    rw [← keptBefore_eq_iff, number]
    exact eq_comm

/-- A flow with two tasks: the first has no name, the second an agent that nobody declared. -/
def haunted : Parsed where
  fields :=
    [("agents", .arr [.obj [("role", .str "me"), ("goal", .str "look"), ("backstory", .str "me"),
      ("tools", .arr [])]]),
    ("tasks", .arr [
      .obj [("description", .str "look"), ("expected_output", .str "it"), ("agent", .str "me"),
        ("tools", .arr []), ("context", .arr [])],
      .obj [("name", .str "t"), ("description", .str "look"), ("expected_output", .str "it"),
        ("agent", .str "ghost"), ("tools", .arr []), ("context", .arr [])]]),
    ("crews", .arr [.obj [("name", .str "us")]])]
  orchestration := .flow

theorem validate_haunted :
    validate haunted = .error (.schema [⟨.tasks, [.key "tasks", .item 0, .key "name"], .missing⟩,
      ⟨.tasks, [.key "tasks", .item 0, .key "agent"], .unknownAgent "t" "ghost"⟩]) := by
  rfl

theorem ghost_is_second_task :
    let raw := entriesOf haunted.fields .tasks
    ((∃ v, raw[0]? = some v ∧ Tells raw 0 v .tasks [.key "agent"] (.unknownAgent "t" "ghost")) ∨
      ∃ p v, raw[p]? = some v ∧ Refers v .tasks [.key "agent"] (.unknownAgent "t" "ghost") ∧
        kept .tasks raw p = true ∧ keptBefore .tasks raw p = 0 ∧
        (p = 0 ↔ ∀ q < p, kept .tasks raw q = true)) ∧
    kept .tasks raw 0 = false ∧ kept .tasks raw 1 = true ∧ keptBefore .tasks raw 1 = 0 :=
  ⟨issues_point_at_entries validate_haunted (.tail _ (.head _)) rfl, by decide, by decide, by decide⟩

/-- The issue of the second task has the place of the first one, which is no task of that name. -/
theorem ghost_blamed_on_first_task :
    ¬∀ (doc : Parsed) (issues : List Issue), validate doc = .error (.schema issues) →
      ∀ (i : Nat) (task role : String),
        ⟨.tasks, [.key "tasks", .item i, .key "agent"], .unknownAgent task role⟩ ∈ issues →
          ∃ v, (entriesOf doc.fields .tasks)[i]? = some v ∧
            said v "name" = some task ∧ said v "agent" = some role := by
  intro points
  obtain ⟨v, here, named, _⟩ := points haunted _ validate_haunted 0 "t" "ghost" (.tail _ (.head _))
  obtain rfl := Option.some.inj here
  exact absurd named (by decide)

end CrewFlow.Spec
