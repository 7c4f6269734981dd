import Mathlib
import CrewFlow.Proofs.Json.Unordered
import CrewFlow.Proofs.Spec.Normal
/-!
# The one shape of documents

A document that is brought into its one shape is in it, and one that is in it stays as it is. Documents that differ
only in lists that say nothing get the same shape, whatever the order of their keys. The order in which a mapping
declares methods is no such order: it becomes the order of their list.
-/
set_option autoImplicit false

namespace CrewFlow.Spec

open Json (Fields Value equal_fields rel_bind rel_map rel_or rel_filter_isNull)

/-! ## Lists -/

/-- A field is there, and it is neither null nor a lone text. -/
def Listed (key : String) (e : Fields) : Prop :=
  ∃ v, e.get? key = some v ∧ v ≠ .null ∧ ∀ s, v ≠ .str s

def filledList : Option Value → Value
  | none => .arr []
  | some .null => .arr []
  | some (.str s) => .arr [.str s]
  | some v => v

/-- A list that says nothing. -/
inductive Unsaid : Option Value → Prop where
  | missing : Unsaid none
  | null : Unsaid (some .null)
  | empty : Unsaid (some (.arr []))

section Lists
variable {key other : String} {e : Fields}

theorem get?_listDefault_self : (listDefault key e).get? key = some (filledList (e.get? key)) := by
  cases found : e.get? key with
  | none => simp [listDefault, found, Fields.get?_insert, filledList]
  | some v => cases v <;> simp [listDefault, found, Fields.get?_insert, filledList]

theorem listed_listDefault : Listed key (listDefault key e) := by
  refine ⟨_, get?_listDefault_self, ?_⟩
  cases e.get? key with
  | none => exact ⟨nofun, nofun⟩
  | some v => cases v <;> exact ⟨nofun, nofun⟩

theorem Listed.listDefault (given : Listed key e) : Listed key (listDefault other e) := by
  by_cases same : key = other
  · subst same
    exact listed_listDefault
  · obtain ⟨v, found, shape⟩ := given
    exact ⟨v, (get?_listDefault same).trans found, shape⟩

theorem listDefault_eq_self (given : Listed key e) : Spec.listDefault key e = e := by
  obtain ⟨v, found, null, lone⟩ := given
  unfold Spec.listDefault
  rw [found]
  cases v with
  | null => exact absurd rfl null
  | str s => exact absurd rfl (lone s)
  | _ => rfl

theorem equal_filledList {x y : Option Value} (alike : Option.Rel Value.Equal x y ∨ Unsaid x ∧ Unsaid y) :
    (filledList x).Equal (filledList y) := by
  rcases alike with equal | ⟨left, right⟩
  · cases equal with
    | none => exact .arr .nil
    | some equal => cases equal with
      | arr each => exact .arr each
      | obj each => exact .obj each
      | null | bool | num | str => exact .refl _
  · have nothing {z : Option Value} (unsaid : Unsaid z) : filledList z = .arr [] := by cases unsaid <;> rfl
    rw [nothing left, nothing right]
    exact .arr .nil

end Lists

/-! ## Fixed points -/

/-- A document in its one shape. -/
structure Normal (fields : Fields) : Prop where
  name : ∀ n, documentName? fields = some n → fields.get? "name" = some (.str n)
  crew : fields.get? "crew" = none
  methods : ∀ ms, fields.get? "flow_methods" ≠ some (.obj ms)
  agent : ∀ items e, fields.get? "agents" = some (.arr items) → .obj e ∈ items → Listed "tools" e
  task : ∀ items e, fields.get? "tasks" = some (.arr items) → .obj e ∈ items → Listed "tools" e ∧ Listed "context" e
  method : ∀ items e, fields.get? "flow_methods" = some (.arr items) → .obj e ∈ items → Listed "listen_to" e

section Shape
variable {fields : Fields} {key : String} {v : Value} {change : Fields → Fields} {P : Fields → Prop}

theorem mem_mapEntries (each : ∀ e, P (change e)) {items : List Value} (shaped : mapEntries change v = .arr items)
    {e : Fields} (member : .obj e ∈ items) : P e := by
  cases v with
  | arr raw =>
      cases shaped
      obtain ⟨old, -, turned⟩ := List.mem_map.mp member
      cases old with
      | obj fs =>
          cases turned
          exact each fs
      | _ => cases turned
  | _ => cases shaped

theorem mapEntries_eq_self (each : ∀ items e, v = .arr items → .obj e ∈ items → change e = e) :
    mapEntries change v = v := by
  cases v with
  | arr items =>
      rw [mapEntries]
      congr 1
      conv_rhs => rw [← List.map_id items]
      refine List.map_congr_left fun entry member => ?_
      cases entry with
      | obj e => exact congrArg Value.obj (each items e rfl member)
      | _ => rfl
  | _ => rfl

theorem methodList_ne_obj (ms : Fields) : methodList v ≠ .obj ms := by
  cases v <;> nofun

theorem mapEntries_methodList_ne_obj (ms : Fields) : mapEntries change (methodList v) ≠ .obj ms := by
  have shape := methodList_ne_obj (v := v)
  cases given : methodList v with
  | obj ns => exact absurd given (shape ns)
  | _ => nofun

theorem methodList_eq_self (shape : ∀ ms, v ≠ .obj ms) : methodList v = v := by
  cases v with
  | obj ms => exact absurd rfl (shape ms)
  | _ => rfl

theorem insert_of_get? (there : fields.get? key = some v) : fields.insert key v = fields := by
  induction fields with
  | nil => cases there
  | cons f rest ih =>
      rw [Fields.get?, Fields.lookup_cons_eq] at there
      by_cases here : key = f.1
      · rw [if_pos here] at there
        rw [Fields.insert, if_pos here.symm, ← Option.some.inj there, here]
      · rw [if_neg here] at there
        rw [Fields.insert, if_neg (Ne.symm here), ih there]

theorem changeField_eq_self {turn : Value → Value} (same : ∀ v, fields.get? key = some v → turn v = v) :
    changeField key turn fields = fields := by
  unfold changeField
  split
  · next v found => rw [same v found, insert_of_get? found]
  · rfl

theorem shown?_eq_some {x : Option Value} {n : String} (shown : shown? x = some n) : x = some (.str n) := by
  unfold shown? at shown
  split at shown
  · split at shown
    · cases shown
    · cases shown
      rfl
  · cases shown

theorem shown?_named {x y : Option Value} :
    shown? ((((shown? x).or (shown? y)).map Value.str).or x) = (shown? x).or (shown? y) := by
  have again {z : Option Value} {n : String} (shown : shown? z = some n) : shown? (some (.str n)) = some n := by
    rw [← shown?_eq_some shown, shown]
  cases own : shown? x with
  | some n => exact again own
  | none =>
      cases flow : shown? y with
      | some n => exact again flow
      | none => exact own

theorem documentName?_normalize : documentName? (normalize fields) = documentName? fields := by
  rw [documentName?, get?_name_normalize, get?_normalize (by decide), documentName?, shown?_named]
  cases (shown? (fields.get? "name")) <;> cases shown? ((fields.get? "flow").bind fun flow => flow.get? "flow_name") <;>
    rfl

theorem normal_normalize : Normal (normalize fields) where
  name n named := by
    rw [documentName?_normalize] at named
    rw [get?_name_normalize, named]
    rfl
  crew := get?_crew_normalize
  methods ms found := by
    rw [get?_methods_normalize] at found
    obtain ⟨v, -, shaped⟩ := Option.map_eq_some_iff.mp found
    exact mapEntries_methodList_ne_obj ms shaped
  agent items e found member := by
    rw [get?_agents_normalize] at found
    obtain ⟨v, -, shaped⟩ := Option.map_eq_some_iff.mp found
    exact mem_mapEntries (fun _ => listed_listDefault) shaped member
  task items e found member := by
    rw [get?_tasks_normalize] at found
    obtain ⟨v, -, shaped⟩ := Option.map_eq_some_iff.mp found
    exact mem_mapEntries (P := fun e => Listed "tools" e ∧ Listed "context" e)
      (fun _ => ⟨listed_listDefault.listDefault, listed_listDefault⟩) shaped member
  method items e found member := by
    rw [get?_methods_normalize] at found
    obtain ⟨v, -, shaped⟩ := Option.map_eq_some_iff.mp found
    exact mem_mapEntries (fun _ => listed_listDefault) shaped member

/-- A document in its one shape stays as it is, in the order of its keys too. -/
theorem normalize_eq_self (normal : Normal fields) : normalize fields = fields := by
  -- None of the six steps finds anything to change.
  have named : withName fields = fields := by
    unfold withName
    split
    · next n given => exact insert_of_get? (normal.name n given)
    · rfl
  have crews : withCrews fields = fields := by rw [withCrews, normal.crew]
  have agents : changeField "agents" (mapEntries (listDefault "tools")) fields = fields :=
    changeField_eq_self fun v found => mapEntries_eq_self fun items e given member =>
      listDefault_eq_self (normal.agent items e (given ▸ found) member)
  have tasks : changeField "tasks" (mapEntries fun task => listDefault "context" (listDefault "tools" task)) fields =
      fields := by
    refine changeField_eq_self fun v found => mapEntries_eq_self fun items e given member => ?_
    obtain ⟨tools, context⟩ := normal.task items e (given ▸ found) member
    rw [listDefault_eq_self tools, listDefault_eq_self context]
  have methods : changeField "flow_methods" methodList fields = fields :=
    changeField_eq_self fun v found => methodList_eq_self fun ms given => normal.methods ms (given ▸ found)
  have listeners : changeField "flow_methods" (mapEntries (listDefault "listen_to")) fields = fields :=
    changeField_eq_self fun v found => mapEntries_eq_self fun items e given member =>
      listDefault_eq_self (normal.method items e (given ▸ found) member)
  simp only [normalize]
  rw [named, crews, agents, tasks, methods, listeners]

end Shape

/-! ## Documents that differ in lists that say nothing -/

/-- Entries that are the same but for lists under some keys that say nothing in either. -/
def EqualBut (keys : List String) (e f : Fields) : Prop :=
  ∀ key, Option.Rel Value.Equal (e.get? key) (f.get? key) ∨ key ∈ keys ∧ Unsaid (e.get? key) ∧ Unsaid (f.get? key)

inductive EntryAlike (keys : List String) : Value → Value → Prop where
  | same {v w : Value} (equal : v.Equal w) : EntryAlike keys v w
  | but {e f : Fields} (equal : EqualBut keys e f) : EntryAlike keys (.obj e) (.obj f)

inductive SectionAlike (keys : List String) : Value → Value → Prop where
  | same {v w : Value} (equal : v.Equal w) : SectionAlike keys v w
  | entries {xs ys : List Value} (each : List.Forall₂ (EntryAlike keys) xs ys) : SectionAlike keys (.arr xs) (.arr ys)

/-- Methods in a list, or in mappings that declare them in the same order. -/
inductive MethodsAlike : Value → Value → Prop where
  | listed {v w : Value} (shape : ∀ ms, v ≠ .obj ms) (alike : SectionAlike ["listen_to"] v w) : MethodsAlike v w
  | named {ms ns : Fields} (each : List.Forall₂ (fun m n => m.1 = n.1 ∧ EntryAlike ["listen_to"] m.2 n.2) ms ns) :
      MethodsAlike (.obj ms) (.obj ns)

/-- Documents that differ at most in tools, contexts and listeners that say nothing in either, and in the order of
their keys. -/
structure SaysAlike (fields others : Fields) : Prop where
  agents : Option.Rel (SectionAlike ["tools"]) (fields.get? "agents") (others.get? "agents")
  tasks : Option.Rel (SectionAlike ["tools", "context"]) (fields.get? "tasks") (others.get? "tasks")
  methods : Option.Rel MethodsAlike (fields.get? "flow_methods") (others.get? "flow_methods")
  others : ∀ key, key ∉ ["agents", "tasks", "flow_methods"] →
    Option.Rel Value.Equal (fields.get? key) (others.get? key)

section Entries
variable {keys : List String} {key : String} {e f : Fields} {v w : Value} {change : Fields → Fields}

theorem EqualBut.of_equal (equal : (Value.obj e).Equal (.obj f)) : EqualBut keys e f := by
  cases equal with
  | obj each => exact fun key => .inl (each key)

theorem EqualBut.equal (but : EqualBut [] e f) : (Value.obj e).Equal (.obj f) :=
  .obj fun key => (but key).resolve_right fun nowhere => List.not_mem_nil nowhere.1

/-- A list that is filled in says the same where it said nothing before. -/
theorem EqualBut.listDefault (but : EqualBut (key :: keys) e f) :
    EqualBut keys (listDefault key e) (listDefault key f) := by
  intro other
  by_cases same : other = key
  · subst same
    left
    rw [get?_listDefault_self, get?_listDefault_self]
    exact .some (equal_filledList ((but other).imp_right And.right))
  · rw [get?_listDefault same, get?_listDefault same]
    refine (but other).imp_right fun ⟨member, unsaid⟩ => ⟨?_, unsaid⟩
    exact (List.mem_cons.mp member).resolve_left same

theorem equal_mapEntries (alike : SectionAlike keys v w)
    (turned : ∀ {e f}, EqualBut keys e f → (Value.obj (change e)).Equal (.obj (change f))) :
    (mapEntries change v).Equal (mapEntries change w) := by
  -- Entries that are the same are mappings with nothing left out, or they are not changed.
  have list {xs ys : List Value} (each : List.Forall₂ (EntryAlike keys) xs ys) :
      (mapEntries change (.arr xs)).Equal (mapEntries change (.arr ys)) := by
    refine .arr ?_
    induction each with
    | nil => exact .nil
    | cons entry _ ih =>
        refine .cons ?_ ih
        cases entry with
        | but equal => exact turned equal
        | same equal => cases equal with
          | obj each => exact turned (.of_equal (.obj each))
          | arr each => exact .arr each
          | null | bool | num | str => exact .refl _
  cases alike with
  | entries each => exact list each
  | same equal => cases equal with
    | arr each => exact list (each.imp fun _ _ => .same)
    | obj each => exact .obj each
    | null | bool | num | str => exact .refl _

theorem has_eq_isSome_get? (key : String) : Fields.has e key = (e.get? key).isSome := by
  induction e with
  | nil => rfl
  | cons f rest ih =>
      simp only [Fields.has, Fields.get?] at ih ⊢
      rw [List.any_cons, Fields.lookup_cons_eq, ih]
      by_cases here : key = f.1
      · simp [here]
      · simp [here, Ne.symm here]

theorem EqualBut.named (but : EqualBut keys e f) (kept : "name" ∉ keys) (name : String) :
    EqualBut keys (if Fields.has e "name" then e else e.insert "name" (.str name))
      (if Fields.has f "name" then f else f.insert "name" (.str name)) := by
  have own := (but "name").resolve_right fun changed => kept changed.1
  have alike : Fields.has e "name" = Fields.has f "name" := by
    rw [has_eq_isSome_get?, has_eq_isSome_get?]
    generalize e.get? "name" = x, f.get? "name" = y at own ⊢
    cases own <;> rfl
  rw [alike]
  split
  · exact but
  · intro key
    rw [Fields.get?_insert, Fields.get?_insert]
    split
    · exact .inl (.some (.str name))
    · exact but key

theorem sectionAlike_methodList (alike : MethodsAlike v w) :
    SectionAlike ["listen_to"] (methodList v) (methodList w) := by
  cases alike with
  | listed shape alike =>
      have other : ∀ ms, w ≠ .obj ms := by
        rintro ms rfl
        cases alike with
        | same equal => cases equal with
          | obj each => exact shape _ rfl
      rw [methodList_eq_self shape, methodList_eq_self other]
      exact alike
  | named each =>
      refine .entries ?_
      induction each with
      | nil => exact .nil
      | @cons m n ms ns entry _ ih =>
          obtain ⟨name, v⟩ := m
          obtain ⟨_, w⟩ := n
          obtain ⟨rfl, entry⟩ := entry
          refine .cons ?_ ih
          cases entry with
          | but equal => exact .but (equal.named (by decide) name)
          | same equal => cases equal with
            | obj each => exact .but ((EqualBut.of_equal (.obj each)).named (by decide) name)
            | arr each => exact .same (.arr each)
            | null | bool | num | str => exact .same (.refl _)

end Entries

section Documents
variable {fields others : Fields} {x y : Option Value}

theorem shown?_congr (equal : Option.Rel Value.Equal x y) : shown? x = shown? y := by
  cases equal with
  | none => rfl
  | some equal => cases equal <;> rfl

theorem equal_crewList {v w : Value} (equal : v.Equal w) : (crewList v).Equal (crewList w) := by
  cases equal with
  | arr each => exact .arr each
  | obj each => exact .arr (.cons (.obj each) .nil)
  | null | bool | num | str => exact .refl _

theorem rel_crewsOf (one : Option.Rel Value.Equal (fields.get? "crew") (others.get? "crew"))
    (all : Option.Rel Value.Equal (fields.get? "crews") (others.get? "crews")) :
    Option.Rel Value.Equal (crewsOf fields) (crewsOf others) :=
  rel_or (rel_filter_isNull all) (rel_or (rel_map one equal_crewList) all)

theorem SaysAlike.documentName? (alike : SaysAlike fields others) :
    Spec.documentName? fields = Spec.documentName? others := by
  have flow := rel_bind (alike.others "flow" (by decide)) fun equal => equal.get? "flow_name"
  rw [Spec.documentName?, Spec.documentName?, shown?_congr (alike.others "name" (by decide)), shown?_congr flow]

theorem equal_normalize (alike : SaysAlike fields others) :
    (Value.obj (normalize fields)).Equal (.obj (normalize others)) := by
  refine .obj fun key => ?_
  -- Each key that is given a shape has its value from its own old value, but for the name and the crews.
  by_cases shaped : key ∈ shapedKeys
  · simp only [shapedKeys, List.mem_cons, List.not_mem_nil, or_false] at shaped
    rcases shaped with rfl | rfl | rfl | rfl | rfl | rfl
    · rw [get?_name_normalize, get?_name_normalize, alike.documentName?]
      cases Spec.documentName? others with
      | none => exact alike.others "name" (by decide)
      | some name => exact .some (.str name)
    · rw [get?_crew_normalize, get?_crew_normalize]
      exact .none
    · rw [get?_crews_normalize, get?_crews_normalize]
      exact rel_crewsOf (alike.others "crew" (by decide)) (alike.others "crews" (by decide))
    · rw [get?_agents_normalize, get?_agents_normalize]
      exact rel_map alike.agents fun v => equal_mapEntries v fun but => but.listDefault.equal
    · rw [get?_tasks_normalize, get?_tasks_normalize]
      exact rel_map alike.tasks fun v => equal_mapEntries v fun but => but.listDefault.listDefault.equal
    · rw [get?_methods_normalize, get?_methods_normalize]
      exact rel_map alike.methods fun v =>
        equal_mapEntries (sectionAlike_methodList v) fun but => but.listDefault.equal
  · rw [get?_normalize shaped, get?_normalize shaped]
    refine alike.others key fun listed => shaped ?_
    revert listed
    simp only [shapedKeys, List.mem_cons, List.not_mem_nil, or_false]
    tauto

end Documents

theorem equalBut_cons {keys : List String} {key : String} {e : Fields} {v : Value} (member : key ∈ keys)
    (before : Unsaid (e.get? key)) (unsaid : Unsaid (some v)) : EqualBut keys e ((key, v) :: e) := by
  intro other
  rw [Fields.get?.eq_1 ((key, v) :: e), Fields.lookup_cons_eq]
  by_cases same : other = key
  · subst same
    rw [if_pos rfl]
    exact .inr ⟨member, before, unsaid⟩
  · rw [if_neg same]
    exact .inl (equal_fields e other)

def agentFields : Fields := [("role", .str "me")]

def taskFields : Fields := [("name", .str "look")]

def methodFields : Fields := [("type", .str "start")]

def terse : Fields :=
  [("name", .str "watch"), ("agents", .arr [.obj agentFields, .str "stray"]), ("tasks", .arr [.obj taskFields]),
    ("flow_methods", .obj [("begin", .obj methodFields)])]

/-- The same document with lists that say nothing, and its keys in another order. -/
def wordy : Fields :=
  [("flow_methods", .obj [("begin", .obj (("listen_to", .null) :: methodFields))]),
    ("tasks", .arr [.obj (("context", .arr []) :: taskFields)]),
    ("agents", .arr [.obj (("tools", .null) :: agentFields), .str "stray"]), ("name", .str "watch")]

theorem terse_says_as_wordy : SaysAlike terse wordy where
  agents := .some (.entries
    (.cons (.but (equalBut_cons (by decide) .missing .null)) (.cons (.same (.str "stray")) .nil)))
  tasks := .some (.entries (.cons (.but (equalBut_cons (by decide) .missing .empty)) .nil))
  methods := .some (.named (.cons ⟨rfl, .but (equalBut_cons (by decide) .missing .null)⟩ .nil))
  others key apart := by
    by_cases name : key = "name"
    · subst name
      exact .some (.str "watch")
    · simp only [List.mem_cons, List.not_mem_nil, or_false, not_or] at apart
      simp only [terse, wordy, Fields.get?, Fields.lookup_cons_eq, apart, name, if_false, List.lookup_nil]
      exact .none

end CrewFlow.Spec
