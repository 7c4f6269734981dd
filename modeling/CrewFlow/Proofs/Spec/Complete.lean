import Mathlib
import CrewFlow.Proofs.Spec.Rules
import CrewFlow.Proofs.Spec.WellFormed
/-!
# Nothing is left out

A faulty entry is left out of the workflow, but it is blamed as well. So a document that passes is there as a
whole: the lists of its workflow have an item for each entry of its sections, in order, and each item has the
name, the tools and the lists of names that its entry gives.
-/
set_option autoImplicit false

namespace CrewFlow.Spec

open Json (Value Fields)

/-! ## Entry for entry -/

/-- There is one item for each value of a list, and the items at each place belong together. -/
structure Corresponds {α : Type} (P : Nat → Value → α → Prop) (values : List Value) (items : List α) :
    Prop where
  count : items.length = values.length
  each : ∀ i v a, values[i]? = some v → items[i]? = some a → P i v a

/-- The items that a field lists: none where it is missing. -/
inductive Lists {α : Type} (P : Nat → Value → α → Prop) : Option Value → List α → Prop where
  | missing : Lists P none []
  | listed {values : List Value} {items : List α} (same : Corresponds P values items) :
      Lists P (some (.arr values)) items

/-- The names that a field gives: `other` where it is missing, a lone text as a list of one, and each text of a
list, without the white space around them. -/
inductive Names (other : List String) : Option Value → List String → Prop where
  | missing : Names other none other
  | lone (s : String) : Names other (some (.str s)) [Text.trim s]
  | listed {texts : List String} (shown : ∀ s ∈ texts, Text.isBlankText s = false) :
      Names other (some (.arr (texts.map .str))) (texts.map Text.trim)

def Says (v : Value) (key name : String) : Prop :=
  ∃ s, written v key = some (.str s) ∧ Text.isBlankText s = false ∧ name = Text.trim s

/-- There is no name under a key, or a blank one. -/
def Unnamed (v : Value) (key : String) : Prop :=
  ∀ x, written v key = some x → ∃ s, x = .str s ∧ Text.isBlankText s = true

/-- Each value of a list of tools is the declaration of one. -/
def ToolsOf (v : Value) (specs : List ToolSpec) : Prop :=
  Lists (fun _ raw spec => ToolSpec.declared raw = .ok spec) (written v "tools") specs

structure AgentOf (v : Value) (a : AgentSpec) : Prop where
  role : Says v "role" a.role
  tools : ToolsOf v a.tools

structure TaskOf (v : Value) (t : TaskSpec) : Prop where
  name : Says v "name" t.name
  tools : ToolsOf v t.tools
  context : Names [] (written v "context") t.context

/-- The crew at a place. Without a name it has its number, counted from one; without lists it has every role
and every task. -/
structure CrewOf (roles tasks : List String) (i : Nat) (v : Value) (c : CrewSpec) : Prop where
  mapping : ∃ fields, v = .obj fields
  name : Says v "name" c.name ∨ Unnamed v "name" ∧ c.name = "crew_" ++ toString (i + 1)
  agents : Names roles (written v "agents") c.agents
  tasks : Names tasks (written v "tasks") c.tasks

structure MethodOf (v : Value) (m : MethodSpec) : Prop where
  name : Says v "name" m.name
  listens : Names [] (written v "listen_to") m.listenTo

/-- The state fields that a mapping declares, under its keys. -/
inductive StateOf : Option Value → List FieldSpec → Prop where
  | missing : StateOf none []
  | declared {decls : Fields} {fields : List FieldSpec} (same : fields.map (·.name) = decls.map (·.1)) :
      StateOf (some (.obj decls)) fields

/-- A workflow has all that its document has. -/
structure Complete (doc : Parsed) (w : Workflow) : Prop where
  agents : Lists (fun _ => AgentOf) (written (.obj doc.fields) "agents") w.agents
  tasks : Lists (fun _ => TaskOf) (written (.obj doc.fields) "tasks") w.tasks
  crews : Lists (CrewOf (w.agents.map (·.role)) (w.tasks.map (·.name)))
    (written (.obj doc.fields) "crews") w.crews
  state : doc.orchestration = .flow → StateOf (written (.obj doc.fields) "state") w.state
  methods : doc.orchestration = .flow →
    Lists (fun _ => MethodOf) (written (.obj doc.fields) "flow_methods") w.methods

section Lists
variable {α : Type} {P : Nat → Value → α → Prop}

theorem corresponds_nil : Corresponds P [] [] := by
  refine ⟨rfl, ?_⟩
  intro i v a here
  cases here

theorem Corresponds.cons {v : Value} {a : α} {values : List Value} {items : List α} (head : P 0 v a)
    (rest : Corresponds (fun i => P (i + 1)) values items) : Corresponds P (v :: values) (a :: items) := by
  refine ⟨by rw [List.length_cons, List.length_cons, rest.count], ?_⟩
  intro i other b here there
  cases i with
  | zero =>
      cases here
      cases there
      exact head
  | succ i => exact rest.each i other b here there

end Lists

/-! ## Fields -/

namespace Entry

variable {e : Entry} {key : String}

theorem says_of_requiredText {name : String} (kept : (e.requiredText key).value = some name) :
    Says (.obj e.fields) key name := by
  unfold requiredText at kept
  split at kept
  · next s found =>
      split at kept
      · cases kept
      · next shown =>
          cases kept
          exact ⟨s, found, by simpa using shown, rfl⟩
  · cases kept
  · cases kept

theorem says_of_optionalText {name : String} (kept : (e.optionalText key).value = some name) :
    Says (.obj e.fields) key name := by
  unfold optionalText at kept
  split at kept
  · cases kept
  · next s found =>
      split at kept
      · cases kept
      · next shown =>
          cases kept
          exact ⟨s, found, by simpa using shown, rfl⟩
  · cases kept

theorem unnamed_of_optionalText (clean : (e.optionalText key).issues = [])
    (kept : (e.optionalText key).value = none) : Unnamed (.obj e.fields) key := by
  intro x given
  change e.get? key = some x at given
  unfold optionalText at clean kept
  simp only [given] at clean kept
  cases x with
  | str s =>
      refine ⟨s, rfl, ?_⟩
      by_contra shown
      simp [shown] at kept
  | _ => simp at clean

theorem nameItems_clean {items : List Value} {i : Nat} (clean : (e.nameItems key i items).issues = []) :
    ∃ texts : List String, items = texts.map .str ∧ (∀ s ∈ texts, Text.isBlankText s = false) ∧
      (e.nameItems key i items).value = texts.map Text.trim := by
  induction items generalizing i with
  | nil => exact ⟨[], rfl, by simp, rfl⟩
  | cons v vs ih =>
      rw [nameItems_cons] at clean ⊢
      cases named : nameIn v with
      | none => simp [named] at clean
      | some name =>
          rw [named] at clean
          obtain ⟨texts, rfl, shown, value⟩ := ih (Checked.clean_bind.mp clean).1
          cases v with
          | str s =>
              rw [nameIn] at named
              split at named
              · cases named
              · next here =>
                  cases named
                  refine ⟨s :: texts, rfl, ?_, ?_⟩
                  · exact List.forall_mem_cons.mpr ⟨by simpa using here, shown⟩
                  · simp [value]
          | _ => cases named

theorem names_of_nameList (other : List String) (clean : (e.nameList key).issues = []) :
    Names other (written (.obj e.fields) key) ((e.nameList key).value.getD other) := by
  change Names other (e.get? key) _
  unfold nameList at clean ⊢
  split at clean
  · next found =>
      rw [found]
      exact .missing
  · next items found =>
      obtain ⟨texts, rfl, shown, value⟩ := nameItems_clean (Checked.clean_bind.mp clean).1
      rw [found]
      simp only [Checked.value_bind, Checked.value_pure, value, Option.getD_some]
      exact .listed shown
  · next s found =>
      rw [found]
      exact .lone s
  · simp at clean

theorem toolItems_clean {items : List Value} {i : Nat} (clean : (e.toolItems i items).issues = []) :
    Corresponds (fun _ raw spec => ToolSpec.declared raw = .ok spec) items (e.toolItems i items).value := by
  induction items generalizing i with
  | nil => exact corresponds_nil
  | cons v vs ih =>
      rw [toolItems] at clean ⊢
      cases declared : ToolSpec.declared v with
      | error fault =>
          rw [declared] at clean
          cases (Checked.clean_bind.mp clean).1
      | ok spec =>
          rw [declared] at clean
          cases faulty : spec.blankField? with
          | some fault =>
              simp only [bind, Except.bind, faulty] at clean
              cases (Checked.clean_bind.mp clean).1
          | none =>
              simp only [bind, Except.bind, faulty] at clean ⊢
              exact .cons declared (ih (Checked.clean_bind.mp clean).1)

theorem toolsOf_of_tools (clean : e.tools.issues = []) : ToolsOf (.obj e.fields) e.tools.value := by
  change Lists _ (e.get? "tools") _
  unfold tools at clean ⊢
  split at clean
  · next found =>
      rw [found]
      exact .missing
  · next items found =>
      rw [found]
      exact .listed (toolItems_clean clean)
  · simp at clean

end Entry

/-! ## Entries -/

section Entries
variable {i : Nat} {e : Entry} {name : String}

theorem agentOf_of_readAgent {a : AgentSpec} (clean : (readAgent i e).issues = [])
    (value : (readAgent i e).value = (some name, some a)) : AgentOf (.obj e.fields) a := by
  simp only [readAgent, Checked.clean_bind, Checked.value_bind, Checked.value_pure, Option.bind_eq_bind,
    Prod.mk.injEq, Option.bind_eq_some_iff] at clean value
  obtain ⟨_, role, given, _, _, _, _, ⟨⟩⟩ := value
  obtain ⟨_, _, _, tools, _⟩ := clean
  exact ⟨Entry.says_of_requiredText given, Entry.toolsOf_of_tools tools⟩

theorem taskOf_of_readTask {t : TaskSpec} (clean : (readTask i e).issues = [])
    (value : (readTask i e).value = (some name, some t)) : TaskOf (.obj e.fields) t := by
  simp only [readTask, Checked.clean_bind, Checked.value_bind, Checked.value_pure, Option.bind_eq_bind,
    Prod.mk.injEq, Option.bind_eq_some_iff] at clean value
  obtain ⟨_, taskName, given, _, _, _, _, ⟨⟩⟩ := value
  obtain ⟨_, _, _, _, tools, context, _⟩ := clean
  exact ⟨Entry.says_of_requiredText given, Entry.toolsOf_of_tools tools,
    Entry.names_of_nameList [] context⟩

theorem crewOf_of_readCrew {agents : List AgentSpec} {tasks : List TaskSpec} {c : CrewSpec}
    (clean : (readCrew agents tasks i e).issues = [])
    (value : (readCrew agents tasks i e).value = (some name, some c)) :
    CrewOf (agents.map (·.role)) (tasks.map (·.name)) i (.obj e.fields) c := by
  simp only [readCrew, Checked.clean_bind, Checked.value_bind, Checked.value_pure] at clean value
  obtain ⟨named, crewAgents, crewTasks, _⟩ := clean
  cases value
  refine ⟨⟨_, rfl⟩, ?_, Entry.names_of_nameList _ crewAgents, Entry.names_of_nameList _ crewTasks⟩
  cases given : (e.optionalText "name").value with
  | none => exact .inr ⟨Entry.unnamed_of_optionalText named given, rfl⟩
  | some own => exact .inl (Entry.says_of_optionalText given)

theorem methodOf_of_readMethod {m : MethodSpec} (clean : (readMethod i e).issues = [])
    (value : (readMethod i e).value = (some name, some m)) : MethodOf (.obj e.fields) m := by
  simp only [readMethod, Checked.clean_bind, Checked.value_bind] at clean value
  obtain ⟨named, kindText, clean⟩ := clean
  obtain ⟨_, given, _⟩ := Entry.requiredText_clean named
  obtain ⟨word, kindly, _⟩ := Entry.requiredText_clean kindText
  rw [kindly] at clean value
  rw [given] at value
  cases known : MethodKind.ofText word with
  | error unknown => simp [known] at clean
  | ok kind =>
      simp only [known, Checked.clean_bind, Checked.value_bind, Checked.value_pure] at clean value
      cases value
      exact ⟨Entry.says_of_requiredText given, Entry.names_of_nameList [] clean.2.2.1⟩

end Entries

/-! ## Sections -/

section Walks
variable {α β : Type} {s : Section} {key : String} {repeated : String → Reason}
  {read : Nat → Entry → Checked (Option String × Option α)} {finish : Entry → α → Checked β}
  {P : Nat → Value → β → Prop}

/-- A clean walk from place `i` on has an item for each entry there. -/
theorem CleanWalk.corresponds
    (keeps : ∀ i e name a, (read i e).issues = [] → (read i e).value = (some name, some a) →
      (finish e a).issues = [] → P i (.obj e.fields) (finish e a).value)
    {seen : List String} {i : Nat} {values : List Value} {items : List β}
    (walked : CleanWalk s read finish seen i values items) :
    Corresponds (fun j => P (i + j)) values items := by
  induction walked with
  | ends => exact corresponds_nil
  | @keeps seen i fields vs e name a rest entry clean value fresh finished onward ih =>
      have here := keeps i e name a clean value finished
      rw [entry] at here ⊢
      refine .cons here ?_
      simpa only [Nat.add_right_comm i 1, Nat.add_assoc] using ih

theorem sectionItems_listed {fields : Fields} (clean : (sectionItems s fields).issues = []) :
    written (.obj fields) s.key = some (.arr (sectionItems s fields).value) := by
  change (fields.get? s.key).filter _ = _
  unfold sectionItems at clean ⊢
  split at clean
  · next found => simpa using found
  · simp at clean
  · simp at clean
  · simp at clean

/-- A section that is read without issues is there, with an item for each of its entries. -/
theorem lists_of_walk {P : Nat → Value → α → Prop}
    (whole : ∀ i e, (read i e).issues = [] → ∃ name a, (read i e).value = (some name, some a))
    (keeps : ∀ i e name a, (read i e).issues = [] → (read i e).value = (some name, some a) →
      P i (.obj e.fields) a)
    {fields : Fields}
    (clean : (sectionItems s fields >>= walk s key repeated read (fun _ a => pure a) [] 0).issues = []) :
    Lists P (written (.obj fields) s.key)
      (sectionItems s fields >>= walk s key repeated read (fun _ a => pure a) [] 0).value := by
  obtain ⟨there, clean⟩ := Checked.clean_bind.mp clean
  have same := (cleanWalk_of_issues whole clean).corresponds (P := P)
    fun i e name a clean value _ => keeps i e name a clean value
  rw [sectionItems_listed there]
  simp only [Nat.zero_add] at same
  exact .listed same

end Walks

theorem lists_readAgents {fields : Fields} (clean : (readAgents fields).issues = []) :
    Lists (fun _ => AgentOf) (written (.obj fields) "agents") (readAgents fields).value :=
  lists_of_walk (s := .agents) (fun i e clean => by
    obtain ⟨a, value, _⟩ := readAgent_clean clean
    exact ⟨_, a, value⟩) (fun _ _ _ _ clean value => agentOf_of_readAgent clean value) clean

theorem lists_readTasks {fields : Fields} (clean : (readTasks fields).issues = []) :
    Lists (fun _ => TaskOf) (written (.obj fields) "tasks") (readTasks fields).value :=
  lists_of_walk (s := .tasks) (fun i e clean => by
    obtain ⟨t, value, _⟩ := readTask_clean clean
    exact ⟨_, t, value⟩) (fun _ _ _ _ clean value => taskOf_of_readTask clean value) clean

theorem lists_readCrews {agents : List AgentSpec} {tasks : List TaskSpec} {fields : Fields}
    (clean : (readCrews agents tasks fields).issues = []) :
    Lists (CrewOf (agents.map (·.role)) (tasks.map (·.name))) (written (.obj fields) "crews")
      (readCrews agents tasks fields).value :=
  lists_of_walk (s := .crews) (fun i e _ => by
    obtain ⟨c, value, _⟩ := readCrew_named agents tasks i e
    exact ⟨_, c, value⟩) (fun _ _ _ _ clean value => crewOf_of_readCrew clean value) clean

theorem lists_readMethods {crews : List CrewSpec} {state : List FieldSpec} {fields : Fields}
    (clean : (readMethods crews state fields).issues = []) :
    Lists (fun _ => MethodOf) (written (.obj fields) "flow_methods")
      (readMethods crews state fields).value := by
  change Lists _ ((fields.get? Section.methods.key).filter _) _
  unfold readMethods at clean ⊢
  split at clean
  · next found =>
      rw [found]
      exact .missing
  · next items found =>
      obtain ⟨walked, _, clean⟩ := by simpa only [Checked.clean_bind] using clean
      have same := (cleanWalk_of_issues (fun i e clean => by
        obtain ⟨m, value, _⟩ := readMethod_clean clean
        exact ⟨_, m, value⟩) walked).corresponds (P := fun _ => MethodOf)
        fun i e name m clean value finished => by
          rw [(finishMethod_clean finished).1]
          exact methodOf_of_readMethod clean value
      rw [found]
      cases cycle : listenCycle? (walk .methods "name" .duplicateMethod readMethod
        (finishMethod crews state) [] 0 items).value with
      | some names => simp [cycle] at clean
      | none =>
          simp only [Checked.value_bind, cycle]
          exact .listed same
  · simp at clean

/-! ## State -/

theorem readFieldType_clean {path : Path} {decl : Value} (clean : (readFieldType path decl).issues = []) :
    ∃ typed, (readFieldType path decl).value = some typed := by
  cases decl with
  | obj spec =>
      simp only [readFieldType] at clean ⊢
      split at clean
      · next word given =>
          cases known : FieldType.ofText word with
          | error unknown => simp [known] at clean
          | ok type => exact ⟨_, rfl⟩
      · simp at clean
      · exact ⟨_, rfl⟩
  | null => simp [readFieldType] at clean
  | num n => cases n <;> exact ⟨_, rfl⟩
  | _ => exact ⟨_, rfl⟩

theorem readField_clean {name : String} {decl : Value} (clean : (readField name decl).issues = []) :
    ∃ f, (readField name decl).value = some f ∧ f.name = name := by
  unfold readField at clean ⊢
  split at clean
  · simp at clean
  · next free =>
      obtain ⟨typed, clean⟩ := Checked.clean_bind.mp clean
      obtain ⟨⟨type, default?⟩, found⟩ := readFieldType_clean typed
      rw [if_neg free]
      simp only [Checked.value_bind, found] at clean ⊢
      cases default? with
      | none => exact ⟨_, rfl, rfl⟩
      | some default =>
          simp only at clean ⊢
          split at clean
          · next accepted =>
              rw [if_pos accepted]
              exact ⟨_, rfl, rfl⟩
          · simp at clean

theorem readFields_clean {decls : Fields} (clean : (readFields decls).issues = []) :
    (readFields decls).value.map (·.name) = decls.map (·.1) := by
  induction decls with
  | nil => rfl
  | cons decl rest ih =>
      obtain ⟨name, decl⟩ := decl
      obtain ⟨here, later⟩ := Checked.clean_bind.mp clean
      obtain ⟨f, kept, named⟩ := readField_clean here
      simp only [readFields, Checked.value_bind, Checked.value_pure, kept, Option.toList_some,
        List.singleton_append, List.map_cons, named, ih (Checked.clean_bind.mp later).1]

theorem stateOf_readState {fields : Fields} (clean : (readState fields).issues = []) :
    StateOf (written (.obj fields) "state") (readState fields).value := by
  change StateOf ((fields.get? Section.state.key).filter _) _
  unfold readState at clean ⊢
  split at clean
  · next found =>
      rw [found]
      exact .missing
  · next decls found =>
      rw [found]
      exact .declared (readFields_clean clean)
  · simp at clean

/-! ## Documents -/

/-- A document that passes validation is there as a whole in its workflow: each section entry for entry, with
the names, the tools and the lists of names that the entries give. -/
theorem validated_workflow_is_complete {doc : Parsed} {w : Workflow} (accepted : validate doc = .ok w) :
    Complete doc w := by
  obtain ⟨clean, rfl⟩ := validate_clean accepted
  obtain ⟨fields, orchestration⟩ := doc
  simp only [checkDocument, Checked.clean_bind, Checked.value_bind] at clean ⊢
  obtain ⟨agents, tasks, crews, clean⟩ := clean
  cases orchestration with
  | crew =>
      refine ⟨lists_readAgents agents, lists_readTasks tasks, lists_readCrews crews, ?_, ?_⟩
      · intro flow
        cases flow
      · intro flow
        cases flow
  | flow =>
      obtain ⟨_, state, methods, _⟩ := by simpa only [Checked.clean_bind] using clean
      exact ⟨lists_readAgents agents, lists_readTasks tasks, lists_readCrews crews,
        fun _ => stateOf_readState state, fun _ => lists_readMethods methods⟩

/-- A flow with tools in both forms, names with white space around them, a task without a context and a crew
without a name. -/
def newsroom : Parsed :=
  let texts (fields : List (String × String)) : Fields := fields.map fun f => (f.1, .str f.2)
  { orchestration := .flow
    fields :=
      [("agents", .arr
         [.obj (texts [("role", " Writer "), ("goal", "write"), ("backstory", "none")] ++
           [("tools", .arr [.str " search ", .obj (texts [("type", "hosted"), ("server", "docs"),
             ("tool", "lookup")])])])]),
       ("tasks", .arr
         [.obj (texts [("name", "draft"), ("description", "Draft."), ("expected_output", "a draft")]),
          .obj (texts [("name", "print"), ("description", "Print."), ("expected_output", "a page")] ++
            [("context", .arr [.str " draft"])])]),
       ("crews", .arr
         [.obj [],
          .obj (texts [("name", "desk ")] ++ [("tasks", .arr [.str "print", .str " draft "])])]),
       ("state", .obj [("page", .str "")]),
       ("flow_methods", .arr
         [.obj (texts [("name", "begin"), ("type", "start"), ("crew", "crew_1")]),
          .obj (texts [("name", "end"), ("type", "listen"), ("listen_to", " begin")])])] }

theorem newsroom_is_complete :
    ∃ w, validate newsroom = .ok w ∧ Complete newsroom w ∧
      w.crews.map (·.name) = ["crew_1", "desk"] ∧
      w.crews.map (·.tasks) = [["draft", "print"], ["print", "draft"]] ∧
      w.tasks.map (·.context) = [[], ["draft"]] := by
  have clean : (checkDocument newsroom).issues.isEmpty = true := by decide +kernel
  have accepted : validate newsroom = .ok (checkDocument newsroom).value := by
    simp only [validate, if_pos clean]
  refine ⟨_, accepted, validated_workflow_is_complete accepted, ?_, ?_, ?_⟩ <;> decide +kernel

end CrewFlow.Spec
