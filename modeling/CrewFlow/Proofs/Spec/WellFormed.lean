import Mathlib
import CrewFlow.Proofs.Spec.Checks
import CrewFlow.Proofs.Spec.Listening
/-!
# Well-formed workflows

What is true of every workflow that validation lets through. Each check is looked at by itself: either it
found something wrong, or what it checks for holds. Since a document passes only when nothing was found
wrong, everything holds.
-/
set_option autoImplicit false

namespace CrewFlow.Spec

open Json (Value Fields)

/-! ## What is promised -/

/-- Names that are all different, not empty and trimmed. -/
structure Named (names : List String) : Prop where
  distinct : names.Nodup
  trimmed : ∀ name ∈ names, Trimmed name

/-- The limits of an agent are positive; the counts among them fit into 32 bits. -/
structure Bounded (a : AgentSpec) : Prop where
  iterations : ∀ n ∈ a.maxIter, 1 ≤ n ∧ n ≤ 4294967295
  requests : ∀ n ∈ a.maxRpm, 1 ≤ n ∧ n ≤ 4294967295
  time : ∀ n ∈ a.maxExecutionTime, 1 ≤ n

/-- A state field does not collide with what runs write, and its default has its type. -/
structure Fit (f : FieldSpec) : Prop where
  free : isReservedField f.name = false
  default : ∀ v ∈ f.default?, f.type.accepts v = true

/-- A method has what its kind needs, and its crew and its output are declared. -/
structure Equipped (crews : List CrewSpec) (state : List FieldSpec) (m : MethodSpec) : Prop where
  predecessor : m.kind ≠ .start → m.listenTo ≠ []
  condition : m.kind = .router → m.condition.isSome
  route : m.kind = .router → m.routes.targets ≠ []
  crew : ∀ crew ∈ m.crew, crew ∈ crews.map (·.name)
  output : ∀ output ∈ m.output, output ∈ state.map (·.name)

/-- A method names declared methods only. -/
structure Linked (names : List String) (m : MethodSpec) : Prop where
  listens : ∀ p ∈ m.listenTo, p ∈ names
  routes : ∀ t ∈ m.routes.targets, t ∈ names

/-- What is promised of the parts that only a flow has. -/
structure FlowFormed (w : Workflow) : Prop where
  owners : ∀ t ∈ w.tasks, ∀ role ∈ t.agent, role ∈ w.agents.map (·.role)
  fields : ∀ f ∈ w.state, Fit f
  equipped : ∀ m ∈ w.methods, Equipped w.crews w.state m
  linked : ∀ m ∈ w.methods, Linked (w.methods.map (·.name)) m
  acyclic : Acyclic w.methods

/-- What is promised of every workflow. -/
structure WellFormed (w : Workflow) : Prop where
  agents : w.agents ≠ []
  tasks : w.tasks ≠ []
  crews : w.crews ≠ []
  roles : Named (w.agents.map (·.role))
  taskNames : Named (w.tasks.map (·.name))
  crewNames : Named (w.crews.map (·.name))
  methodNames : Named (w.methods.map (·.name))
  bounded : ∀ a ∈ w.agents, Bounded a
  bare : w.orchestration = .crew → w.state = [] ∧ w.methods = []
  flow : w.orchestration = .flow → FlowFormed w

/-! ## Agents, tasks and crews -/

theorem readAgent_clean {i : Nat} {e : Entry} (clean : (readAgent i e).issues = []) :
    ∃ a : AgentSpec, (readAgent i e).value = (some a.role, some a) ∧ Trimmed a.role ∧ Bounded a := by
  simp only [readAgent, Checked.clean_bind, Checked.value_bind, Checked.value_pure] at clean ⊢
  obtain ⟨role, goal, backstory, _⟩ := clean
  obtain ⟨_, hasRole, trimmed⟩ := Entry.requiredText_clean role
  obtain ⟨_, hasGoal, _⟩ := Entry.requiredText_clean goal
  obtain ⟨_, hasBackstory, _⟩ := Entry.requiredText_clean backstory
  rw [hasRole, hasGoal, hasBackstory]
  refine ⟨⟨_, _, _, _, _, _, _, _, _⟩, rfl, trimmed, ?_, ?_, ?_⟩
  · exact fun n kept => Entry.within_of_optionalCount kept
  · exact fun n kept => Entry.within_of_optionalCount kept
  · exact fun n kept => Entry.le_of_optionalPositive kept

theorem readTask_clean {i : Nat} {e : Entry} (clean : (readTask i e).issues = []) :
    ∃ t : TaskSpec, (readTask i e).value = (some t.name, some t) ∧ Trimmed t.name := by
  simp only [readTask, Checked.clean_bind, Checked.value_bind, Checked.value_pure] at clean ⊢
  obtain ⟨name, description, expected, _⟩ := clean
  obtain ⟨_, hasName, trimmed⟩ := Entry.requiredText_clean name
  obtain ⟨_, hasDescription, _⟩ := Entry.requiredText_clean description
  obtain ⟨_, hasExpected, _⟩ := Entry.requiredText_clean expected
  rw [hasName, hasDescription, hasExpected]
  exact ⟨⟨_, _, _, _, _, _, _, _⟩, rfl, trimmed⟩

theorem readCrew_named (agents : List AgentSpec) (tasks : List TaskSpec) (i : Nat) (e : Entry) :
    ∃ c : CrewSpec, (readCrew agents tasks i e).value = (some c.name, some c) ∧ Trimmed c.name := by
  simp only [readCrew, Checked.value_bind, Checked.value_pure]
  refine ⟨⟨_, _, _, _, _, _⟩, rfl, ?_⟩
  cases given : (e.optionalText "name").value with
  | none => exact trimmed_numbered (i + 1)
  | some name => exact Entry.trimmed_of_optionalText given

/-- A section whose entries are kept under their names, with what is known of each. -/
theorem named_of_walk {α : Type} {s : Section} {key : String} {repeated : String → Reason}
    {read : Nat → Entry → Checked (Option String × Option α)} {named : α → String} {P : α → Prop}
    (whole : ∀ i e, (read i e).issues = [] →
      ∃ a, (read i e).value = (some (named a), some a) ∧ Trimmed (named a) ∧ P a)
    {fields : Fields}
    (clean : (sectionItems s fields >>= walk s key repeated read (fun _ a => pure a) [] 0).issues = []) :
    let kept := (sectionItems s fields >>= walk s key repeated read (fun _ a => pure a) [] 0).value
    kept ≠ [] ∧ Named (kept.map named) ∧ ∀ a ∈ kept, P a := by
  obtain ⟨items, clean⟩ := Checked.clean_bind.mp clean
  have walked := cleanWalk_of_issues (fun i e clean => by
    obtain ⟨a, value, _⟩ := whole i e clean
    exact ⟨_, a, value⟩) clean
  obtain ⟨count, distinct, each⟩ := walked.named named (P := fun a => Trimmed (named a) ∧ P a)
    (fun i e name a clean value _ => by
      obtain ⟨b, same, trimmed, holds⟩ := whole i e clean
      obtain ⟨rfl, rfl⟩ : name = named b ∧ a = b := by simpa [value] using same
      exact ⟨rfl, trimmed, holds⟩)
  refine ⟨?_, ⟨distinct, ?_⟩, fun a member => (each a member).2.2⟩
  · intro nothing
    rw [Checked.value_bind] at nothing
    rw [nothing] at count
    exact sectionItems_clean items (List.length_eq_zero_iff.mp count.symm)
  · intro name member
    obtain ⟨a, kept, rfl⟩ := List.mem_map.mp member
    exact (each a kept).2.1

theorem checkOwners_clean {agents : List AgentSpec} : ∀ {tasks : List TaskSpec} {i : Nat},
    (checkOwners agents i tasks).issues = [] →
      ∀ t ∈ tasks, ∀ role ∈ t.agent, role ∈ agents.map (·.role) := by
  intro tasks
  induction tasks with
  | nil => simp
  | cons t ts ih =>
      intro i clean
      rw [checkOwners] at clean
      cases owned : t.agent with
      | none =>
          rw [owned] at clean
          simpa [owned] using ih clean
      | some owner =>
          rw [owned] at clean
          obtain ⟨here, later⟩ := Checked.clean_bind.mp clean
          have known := (Checked.issues_reportIf ..).mp here
          intro other member role asks
          rcases List.mem_cons.mp member with rfl | behind
          · obtain rfl : owner = role := by simpa [owned] using asks
            simpa using known
          · exact ih later other behind role asks

/-! ## State -/

theorem readField_fit {name : String} {decl : Value} {f : FieldSpec}
    (kept : (readField name decl).value = some f) : f.name = name ∧ Fit f := by
  unfold readField at kept
  split at kept
  · cases kept
  · next free =>
      have free : isReservedField name = false := by simpa using free
      simp only [Checked.value_bind] at kept
      split at kept
      · cases kept
      · split at kept
        · next accepted =>
            cases kept
            refine ⟨rfl, free, ?_⟩
            intro v given
            cases given
            exact accepted
        · cases kept
      · cases kept
        exact ⟨rfl, free, by simp⟩

theorem readFields_fit {decls : List (String × Value)} :
    ((readFields decls).value.map (·.name)).Sublist (decls.map (·.1)) ∧
      ∀ f ∈ (readFields decls).value, Fit f := by
  induction decls with
  | nil => simp [readFields]
  | cons d rest ih =>
      obtain ⟨name, decl⟩ := d
      obtain ⟨names, fits⟩ := ih
      simp only [readFields, Checked.value_bind, Checked.value_pure]
      cases kept : (readField name decl).value with
      | none => exact ⟨names.cons _, fits⟩
      | some f =>
          obtain ⟨same, fit⟩ := readField_fit kept
          refine ⟨?_, ?_⟩
          · simpa [same] using names
          · intro g member
            rcases List.mem_cons.mp member with rfl | later
            · exact fit
            · exact fits g later

theorem readState_fit {fields : Fields} : ∀ f ∈ (readState fields).value, Fit f := by
  unfold readState
  split
  · simp
  · exact readFields_fit.2
  · simp

/-! ## Methods -/

theorem readMethod_clean {i : Nat} {e : Entry} (clean : (readMethod i e).issues = []) :
    ∃ m : MethodSpec, (readMethod i e).value = (some m.name, some m) ∧ Trimmed m.name := by
  simp only [readMethod, Checked.clean_bind, Checked.value_bind] at clean ⊢
  obtain ⟨name, kindText, clean⟩ := clean
  obtain ⟨_, hasName, trimmed⟩ := Entry.requiredText_clean name
  obtain ⟨word, hasKind, _⟩ := Entry.requiredText_clean kindText
  rw [hasKind] at clean
  rw [hasName, hasKind]
  simp only at clean ⊢
  cases known : MethodKind.ofText word with
  | error unknown => simp [known] at clean
  | ok kind => exact ⟨⟨_, _, _, _, _, _, _, _⟩, rfl, trimmed⟩

theorem finishMethod_clean {crews : List CrewSpec} {state : List FieldSpec} {e : Entry}
    {m : MethodSpec} (clean : (finishMethod crews state e m).issues = []) :
    (finishMethod crews state e m).value = m ∧ Equipped crews state m := by
  have same : (finishMethod crews state e m).value = m := by
    simp only [finishMethod, Checked.value_bind]
    cases m.crew <;> cases m.output <;> rfl
  simp only [finishMethod, Checked.clean_bind, Checked.issues_reportIf] at clean
  obtain ⟨predecessor, condition, route, names⟩ := clean
  have declared : (∀ crew ∈ m.crew, crew ∈ crews.map (·.name)) ∧
      ∀ output ∈ m.output, output ∈ state.map (·.name) := by
    cases named : m.crew <;> cases stored : m.output <;>
      simp_all [Checked.issues_reportIf]
  refine ⟨same, ?_, ?_, ?_, declared.1, declared.2⟩
  · intro later nothing
    simp [later, nothing] at predecessor
  · intro router
    simpa [router, Option.isSome_iff_ne_none] using condition
  · intro router
    simpa [router] using route

theorem clean_forM {α : Type} {f : α → Checked Unit} {xs : List α} (clean : (xs.forM f).issues = []) :
    ∀ x ∈ xs, (f x).issues = [] := by
  induction xs with
  | nil => simp
  | cons x xs ih =>
      obtain ⟨here, later⟩ := Checked.clean_bind.mp clean
      intro y member
      rcases List.mem_cons.mp member with rfl | behind
      · exact here
      · exact ih later y behind

theorem checkTargets_clean {names : List String} : ∀ {methods : List MethodSpec} {i : Nat},
    (checkTargets names i methods).issues = [] → ∀ m ∈ methods, Linked names m := by
  intro methods
  induction methods with
  | nil => simp
  | cons m ms ih =>
      intro i clean
      simp only [checkTargets, Checked.clean_bind] at clean
      obtain ⟨listens, routes, later⟩ := clean
      intro other member
      rcases List.mem_cons.mp member with rfl | behind
      · refine ⟨fun p named => ?_, fun t named => ?_⟩
        · have known := (Checked.issues_reportIf ..).mp (clean_forM listens p named)
          simpa using known
        · have known := (Checked.issues_reportIf ..).mp (clean_forM routes t named)
          simpa using known
      · exact ih later other behind

/-- A walk through methods that finds nothing wrong keeps methods that have what their kinds need. -/
theorem walkMethods_clean {crews : List CrewSpec} {state : List FieldSpec} {items : List Value}
    {methods : List MethodSpec}
    (walked : CleanWalk .methods readMethod (finishMethod crews state) [] 0 items methods) :
    Named (methods.map (·.name)) ∧ ∀ m ∈ methods, Equipped crews state m := by
  obtain ⟨_, distinct, each⟩ := walked.named MethodSpec.name
    (P := fun m => Trimmed m.name ∧ Equipped crews state m) (fun i e name m clean value finished => by
      obtain ⟨other, same, trimmed⟩ := readMethod_clean clean
      obtain ⟨rfl, rfl⟩ : name = other.name ∧ m = other := by simpa [value] using same
      obtain ⟨kept, equipped⟩ := finishMethod_clean finished
      rw [kept]
      exact ⟨rfl, trimmed, equipped⟩)
  refine ⟨⟨distinct, ?_⟩, fun m member => (each m member).2.2⟩
  intro name member
  obtain ⟨m, kept, rfl⟩ := List.mem_map.mp member
  exact (each m kept).2.1

theorem readMethods_clean {crews : List CrewSpec} {state : List FieldSpec} {fields : Fields}
    (clean : (readMethods crews state fields).issues = []) :
    let methods := (readMethods crews state fields).value
    Named (methods.map (·.name)) ∧ (∀ m ∈ methods, Equipped crews state m) ∧
      (∀ m ∈ methods, Linked (methods.map (·.name)) m) ∧ Acyclic methods := by
  unfold readMethods at clean ⊢
  split at clean
  · refine ⟨⟨List.nodup_nil, by simp⟩, by simp, by simp, ?_⟩
    intro name loop
    obtain ⟨_, listens, _⟩ := Relation.TransGen.head'_iff.mp loop
    simpa using listens.mem_names
  · next items found =>
      simp only [Checked.clean_bind, Checked.value_bind] at clean ⊢
      obtain ⟨walked, targets, clean⟩ := clean
      cases cycle : listenCycle? (walk .methods "name" .duplicateMethod readMethod
        (finishMethod crews state) [] 0 items).value with
      | some names => simp [cycle] at clean
      | none =>
          have walked := cleanWalk_of_issues (fun i e clean => by
            obtain ⟨m, value, _⟩ := readMethod_clean clean
            exact ⟨_, m, value⟩) walked
          obtain ⟨named, equipped⟩ := walkMethods_clean walked
          exact ⟨named, equipped, checkTargets_clean targets, acyclic_of_listenCycle? named.distinct cycle⟩
  · simp at clean

/-! ## Documents -/

theorem readAgents_clean {fields : Fields} (clean : (readAgents fields).issues = []) :
    (readAgents fields).value ≠ [] ∧ Named ((readAgents fields).value.map (·.role)) ∧
      ∀ a ∈ (readAgents fields).value, Bounded a :=
  named_of_walk (fun _ _ clean => readAgent_clean clean) clean

theorem readTasks_clean {fields : Fields} (clean : (readTasks fields).issues = []) :
    (readTasks fields).value ≠ [] ∧ Named ((readTasks fields).value.map (·.name)) := by
  obtain ⟨nonempty, named, _⟩ := named_of_walk (P := fun _ => True) (fun _ _ clean => by
    obtain ⟨t, value, trimmed⟩ := readTask_clean clean
    exact ⟨t, value, trimmed, trivial⟩) clean
  exact ⟨nonempty, named⟩

theorem readCrews_clean {agents : List AgentSpec} {tasks : List TaskSpec} {fields : Fields}
    (clean : (readCrews agents tasks fields).issues = []) :
    (readCrews agents tasks fields).value ≠ [] ∧
      Named ((readCrews agents tasks fields).value.map (·.name)) := by
  obtain ⟨nonempty, named, _⟩ := named_of_walk (P := fun _ => True) (fun i e _ => by
    obtain ⟨c, value, trimmed⟩ := readCrew_named agents tasks i e
    exact ⟨c, value, trimmed, trivial⟩) clean
  exact ⟨nonempty, named⟩

theorem checkDocument_clean {doc : Parsed} (clean : (checkDocument doc).issues = []) :
    (checkDocument doc).value.orchestration = doc.orchestration ∧ WellFormed (checkDocument doc).value := by
  obtain ⟨fields, orchestration⟩ := doc
  simp only [checkDocument, Checked.clean_bind, Checked.value_bind] at clean ⊢
  obtain ⟨agents, tasks, crews, clean⟩ := clean
  obtain ⟨someAgents, roles, bounded⟩ := readAgents_clean agents
  obtain ⟨someTasks, taskNames⟩ := readTasks_clean tasks
  obtain ⟨someCrews, crewNames⟩ := readCrews_clean crews
  cases orchestration with
  | crew =>
      refine ⟨rfl, someAgents, someTasks, someCrews, roles, taskNames, crewNames, ⟨List.nodup_nil, ?_⟩,
        bounded, fun _ => ⟨rfl, rfl⟩, ?_⟩
      · intro name member
        cases member
      · intro flow
        cases flow
  | flow =>
      obtain ⟨owners, _, methods, _⟩ := by simpa only [Checked.clean_bind] using clean
      obtain ⟨methodNames, equipped, linked, acyclic⟩ := readMethods_clean methods
      refine ⟨rfl, someAgents, someTasks, someCrews, roles, taskNames, crewNames, methodNames, bounded,
        ?_, fun _ => ⟨checkOwners_clean owners, readState_fit, equipped, linked, acyclic⟩⟩
      intro crew
      cases crew

theorem validate_clean {doc : Parsed} {w : Workflow} (accepted : validate doc = .ok w) :
    (checkDocument doc).issues = [] ∧ (checkDocument doc).value = w := by
  simp only [validate] at accepted
  split at accepted
  · next clean =>
      cases accepted
      exact ⟨List.isEmpty_iff.mp clean, rfl⟩
  · cases accepted

theorem wellFormed_of_validate {doc : Parsed} {w : Workflow} (accepted : validate doc = .ok w) :
    WellFormed w := by
  obtain ⟨clean, rfl⟩ := validate_clean accepted
  exact (checkDocument_clean clean).2

theorem validate_of_check {text : String} {wish : Option String} {w : Workflow}
    (checked : check text wish = .ok w) : ∃ doc, parse text wish = .ok doc ∧ validate doc = .ok w := by
  unfold check at checked
  cases read : parse text wish with
  | error e => simp [read, bind, Except.bind] at checked
  | ok doc => exact ⟨doc, rfl, by simpa [read, bind, Except.bind] using checked⟩

/-- A document that passes validation describes a well-formed workflow of its orchestration. -/
theorem validated_workflow_is_well_formed {doc : Parsed} {w : Workflow} (accepted : validate doc = .ok w) :
    w.orchestration = doc.orchestration ∧ WellFormed w := by
  obtain ⟨clean, rfl⟩ := validate_clean accepted
  exact checkDocument_clean clean

/-- A flow whose first method listens to the router behind it: no method is declared to start, so the
first one starts, and what it listens to closes no cycle. -/
def editing : Parsed :=
  let texts (fields : List (String × String)) : Fields := fields.map fun f => (f.1, .str f.2)
  { orchestration := .flow
    fields :=
      [("agents", .arr [.obj (texts [("role", "Editor"), ("goal", "edit"), ("backstory", "none")])]),
       ("tasks", .arr [.obj (texts [("name", "edit"), ("description", "Edit."),
         ("expected_output", "a page"), ("agent", "Editor")])]),
       ("crews", .arr [.obj (texts [("name", "desk")])]),
       ("state", .obj [("good", .bool false), ("page", .obj (texts [("type", "text")]))]),
       ("flow_methods", .arr
         [.obj (texts [("name", "draft"), ("type", "listen"), ("listen_to", "review"), ("crew", "desk"),
            ("output", "page")]),
          .obj (texts [("name", "review"), ("type", "router"), ("listen_to", "draft"),
            ("condition", "good")] ++ [("routes", .obj (texts [("true", "publish"), ("false", "draft")]))]),
          .obj (texts [("name", "publish"), ("type", "listen"), ("listen_to", "review")])])] }

theorem editing_is_well_formed :
    ∃ w, validate editing = .ok w ∧ w.methods.map (·.name) = ["draft", "review", "publish"] ∧
      w.orchestration = editing.orchestration ∧ WellFormed w := by
  have clean : (checkDocument editing).issues.isEmpty = true := by decide +kernel
  have accepted : validate editing = .ok (checkDocument editing).value := by
    simp only [validate, if_pos clean]
  refine ⟨_, accepted, ?_, validated_workflow_is_well_formed accepted⟩
  decide +kernel

end CrewFlow.Spec
