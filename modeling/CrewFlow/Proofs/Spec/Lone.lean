import Mathlib
import CrewFlow.Proofs.Spec.Normal
import CrewFlow.Proofs.Spec.Pointing
/-!
# Lone names

A field that takes a list of names may hold a lone text in place of a list of one. Contexts and listeners are
brought into one shape before validation. The lists of a crew are read as they stand, where a blank item of a
list is blamed and a blank lone text is not.
-/
set_option autoImplicit false

namespace CrewFlow.Spec

open Json (Fields Value)

/-! ## Places -/

def valueAt? : Path → Value → Option Value
  | [], v => some v
  | .key key :: rest, v => (v.get? key).bind (valueAt? rest)
  | .item i :: rest, v => v.items?.bind fun items => items[i]?.bind (valueAt? rest)

def putAt (new : Value) : Path → Value → Value
  | [], _ => new
  | .key key :: rest, .obj fields => .obj (changeField key (putAt new rest) fields)
  | .item i :: rest, .arr items => .arr (items.modify i (putAt new rest))
  | _, v => v

/-- The places of fields that take a list of names: contexts, the agents and the tasks of crews, and what
methods listen to. Crews may stand alone, and methods in a list or under their names. -/
inductive TakesNames : Path → Prop where
  | context (i : Nat) : TakesNames [.key "tasks", .item i, .key "context"]
  | crews (i : Nat) {key : String} (part : key = "agents" ∨ key = "tasks") :
      TakesNames [.key "crews", .item i, .key key]
  | crew {key : String} (part : key = "agents" ∨ key = "tasks") : TakesNames [.key "crew", .key key]
  | crewList (i : Nat) {key : String} (part : key = "agents" ∨ key = "tasks") :
      TakesNames [.key "crew", .item i, .key key]
  | method (i : Nat) : TakesNames [.key "flow_methods", .item i, .key "listen_to"]
  | named (name : String) : TakesNames [.key "flow_methods", .key name, .key "listen_to"]

/-- A place in a crew that validation reads. What stands under `crew` is not read where there are `crews`. -/
def InCrew (fields : Fields) (place : Path) : Prop :=
  place.head? = some (.key "crews") ∨
    place.head? = some (.key "crew") ∧ ((fields.get? "crews").filter fun v => !v.isNull) = none

/-! ## Entries -/

def relisted (key s : String) (e : Fields) : Fields := e.insert key (.arr [.str s])

section Entries
variable {e : Fields} {key other s : String}

theorem insert_insert {v w old : Value} (there : e.get? key = some old) (apart : key ≠ other) :
    (e.insert key v).insert other w = (e.insert other w).insert key v := by
  induction e with
  | nil => cases there
  | cons f rest ih =>
      rw [Fields.get?, Fields.lookup_cons_eq] at there
      by_cases first : f.1 = key
      · simp [Fields.insert, first, apart]
      · rw [if_neg (Ne.symm first)] at there
        by_cases second : f.1 = other
        · simp [Fields.insert, second, Ne.symm apart]
        · simp [Fields.insert, first, second, ih there]

theorem has_insert {v : Value} (apart : key ≠ other) : Fields.has (e.insert key v) other = Fields.has e other := by
  induction e with
  | nil => simp [Fields.has, Fields.insert, apart]
  | cons f rest ih =>
      simp only [Fields.has] at ih ⊢
      by_cases here : f.1 = key
      · simp [Fields.insert, here]
      · simp [Fields.insert, here, ih]

theorem map_insert {α : Type} {v new : Value} {read : String × Value → α} (there : e.get? key = some v)
    (same : read (key, new) = read (key, v)) : (e.insert key new).map read = e.map read := by
  induction e with
  | nil => cases there
  | cons f rest ih =>
      obtain ⟨name, w⟩ := f
      rw [Fields.get?, Fields.lookup_cons_eq] at there
      by_cases first : key = name
      · subst first
        rw [if_pos rfl] at there
        cases there
        simp [Fields.insert, same]
      · rw [if_neg first] at there
        simp [Fields.insert, Ne.symm first, ih there]

theorem listDefault_relisted (lone : e.get? key = some (.str s)) :
    listDefault key (relisted key s e) = listDefault key e := by
  simp [listDefault, relisted, Fields.get?_insert, lone]

theorem listDefault_insert {v old : Value} (there : e.get? key = some old) (apart : key ≠ other) :
    listDefault other (e.insert key v) = (listDefault other e).insert key v := by
  have untouched : (e.insert key v).get? other = e.get? other := by
    rw [Fields.get?_insert, if_neg (Ne.symm apart)]
  unfold listDefault
  rw [untouched]
  split
  · exact insert_insert there apart
  · exact insert_insert there apart
  · exact insert_insert there apart
  · rfl

end Entries

/-! ## Sections -/

/-- The entry at a place of a list that has a lone text under a key. -/
structure LoneAt (key s : String) (items : List Value) (i : Nat) (e : Fields) : Prop where
  entry : items[i]? = some (.obj e)
  lone : e.get? key = some (.str s)

section Sections
variable {key s : String} {i : Nat} {v : Value}

theorem putAt_lone {e : Fields} (lone : e.get? key = some (.str s)) (new : Value) :
    putAt new [.key key] (.obj e) = .obj (e.insert key new) := by
  simp [putAt, changeField, lone]

theorem exists_lone (found : valueAt? [.key key] v = some (.str s)) :
    ∃ e : Fields, v = .obj e ∧ e.get? key = some (.str s) := by
  obtain ⟨x, there, same⟩ := Option.bind_eq_some_iff.mp found
  cases same
  cases v with
  | obj e => exact ⟨e, rfl, there⟩
  | _ => cases there

theorem exists_loneAt (found : valueAt? [.item i, .key key] v = some (.str s)) :
    ∃ (items : List Value) (e : Fields), v = .arr items ∧ LoneAt key s items i e ∧
      putAt (.arr [.str s]) [.item i, .key key] v = .arr (items.set i (.obj (relisted key s e))) := by
  obtain ⟨items, list, found⟩ := Option.bind_eq_some_iff.mp found
  obtain ⟨x, entry, found⟩ := Option.bind_eq_some_iff.mp found
  obtain ⟨e, rfl, lone⟩ := exists_lone found
  cases v with
  | arr items =>
      cases list
      refine ⟨items, e, rfl, ⟨entry, lone⟩, ?_⟩
      rw [putAt, List.modify_eq_set_getElem?, entry]
      exact congrArg Value.arr (congrArg (items.set i) (putAt_lone lone _))
  | _ => cases list

/-- Where the change of an entry takes a lone text and a list of one for the same, so does the change of a
section. -/
theorem mapEntries_set {change : Fields → Fields} {items : List Value} {e : Fields}
    (at_ : LoneAt key s items i e) (absorbs : change (relisted key s e) = change e) :
    mapEntries change (.arr (items.set i (.obj (relisted key s e)))) = mapEntries change (.arr items) := by
  simp only [mapEntries, List.map_set, absorbs]
  congr 1
  refine List.ext_getElem? fun j => ?_
  rw [List.getElem?_set]
  split
  · next here =>
      subst here
      rw [List.getElem?_map, at_.entry]
      simp [(List.getElem?_eq_some_iff.mp at_.entry).1]
  · rfl

theorem mapEntries_methodList_insert {methods e : Fields} {name : String}
    (there : methods.get? name = some (.obj e)) (lone : e.get? "listen_to" = some (.str s)) :
    mapEntries (listDefault "listen_to")
        (methodList (.obj (methods.insert name (.obj (relisted "listen_to" s e))))) =
      mapEntries (listDefault "listen_to") (methodList (.obj methods)) := by
  simp only [methodList, mapEntries, List.map_map]
  refine congrArg Value.arr (map_insert there ?_)
  have same : listDefault "listen_to" (if Fields.has (relisted "listen_to" s e) "name" then
        relisted "listen_to" s e else Fields.insert (relisted "listen_to" s e) "name" (.str name)) =
      listDefault "listen_to" (if Fields.has e "name" then e else Fields.insert e "name" (.str name)) := by
    rw [relisted, has_insert (by decide)]
    split
    · exact listDefault_relisted lone
    · rw [insert_insert lone (by decide)]
      exact listDefault_relisted (by rw [Fields.get?_insert, if_neg (by decide), lone])
  simp only [Function.comp_apply, same]

end Sections

/-! ## Crews -/

def Entry.relisted (e : Entry) (key s : String) : Entry := { e with fields := Spec.relisted key s e.fields }

namespace Entry
variable {e : Entry} {key other s : String}

theorem get?_relisted (apart : other ≠ key) : (e.relisted key s).get? other = e.get? other := by
  simp only [Entry.get?, relisted, Spec.relisted, Fields.get?_insert, if_neg apart]

theorem get?_relisted_self : (e.relisted key s).get? key = some (.arr [.str s]) := by
  simp [Entry.get?, relisted, Spec.relisted, Fields.get?_insert, Option.filter, Value.isNull]

theorem optionalText_relisted (apart : other ≠ key) :
    (e.relisted key s).optionalText other = e.optionalText other := by
  simp only [optionalText, get?_relisted apart]
  rfl

theorem optionalBool_relisted (apart : other ≠ key) :
    (e.relisted key s).optionalBool other = e.optionalBool other := by
  simp only [optionalBool, get?_relisted apart]
  rfl

theorem word_relisted {α : Type} {read : String → Except UnknownWord α} {otherwise : α} (apart : other ≠ key) :
    (e.relisted key s).word other read otherwise = e.word other read otherwise := by
  simp only [word, optionalText_relisted apart]
  rfl

theorem nameItems_relisted (i : Nat) (items : List Value) :
    (e.relisted key s).nameItems other i items = e.nameItems other i items := by
  induction items generalizing i with
  | nil => rfl
  | cons v vs ih =>
      rw [nameItems_cons, nameItems_cons, ih]
      rfl

theorem nameList_relisted (apart : other ≠ key) : (e.relisted key s).nameList other = e.nameList other := by
  simp only [nameList, get?_relisted apart, nameItems_relisted]
  rfl

theorem nameList_relisted_self (lone : e.get? key = some (.str s)) (shown : Text.isBlankText s = false) :
    (e.relisted key s).nameList key = e.nameList key := by
  have listed : (e.relisted key s).nameItems key 0 [.str s] = pure [Text.trim s] := by
    rw [nameItems_cons]
    simp only [nameIn, shown]
    rfl
  simp only [nameList, get?_relisted_self, lone, listed]
  rfl

theorem blamed_nameList_relisted (blank : Text.isBlankText s = true) :
    ⟨e.area, e.pathTo key ++ [.item 0], .blankItem⟩ ∈ ((e.relisted key s).nameList key).issues := by
  simp only [nameList, get?_relisted_self, nameItems_cons, nameIn, blank]
  exact List.mem_append_left _ List.mem_cons_self

end Entry

theorem readCrew_relisted {agents : List AgentSpec} {tasks : List TaskSpec} {e : Entry} {key s : String}
    (part : key = "agents" ∨ key = "tasks") (lone : e.get? key = some (.str s))
    (shown : Text.isBlankText s = false) (i : Nat) :
    readCrew agents tasks i (e.relisted key s) = readCrew agents tasks i e := by
  have names (other : String) : (e.relisted key s).nameList other = e.nameList other := by
    by_cases same : other = key
    · subst same
      exact Entry.nameList_relisted_self lone shown
    · exact Entry.nameList_relisted same
  have apart : "name" ≠ key ∧ "process" ≠ key ∧ "manager" ≠ key ∧ "memory" ≠ key := by
    rcases part with rfl | rfl <;> decide
  rw [readCrew, readCrew, names, names, Entry.optionalText_relisted apart.1, Entry.word_relisted apart.2.1,
    Entry.optionalText_relisted apart.2.2.1, Entry.optionalBool_relisted apart.2.2.2]

theorem blamed_readCrew_relisted {agents : List AgentSpec} {tasks : List TaskSpec} {e : Entry} {key s : String}
    (part : key = "agents" ∨ key = "tasks") (blank : Text.isBlankText s = true) (i : Nat) :
    ⟨e.area, e.pathTo key ++ [.item 0], .blankItem⟩ ∈
      (readCrew agents tasks i (e.relisted key s)).issues := by
  have blamed := @Entry.blamed_nameList_relisted e key s blank
  simp only [readCrew, Checked.issues_bind, List.mem_append]
  rcases part with rfl | rfl
  · exact .inr (.inl blamed)
  · exact .inr (.inr (.inl blamed))

theorem Checked.start {α β : Type} (a : α) (f : α → Checked β) : (pure a >>= f) = f a := rfl

section Walks
variable {α β : Type} {area : Section} {key : String} {repeated : String → Reason}
  {read : Nat → Entry → Checked (Option String × Option α)} {finish : α → Checked β}

theorem walk_set {e e' : Fields} : ∀ {items : List Value} {i j : Nat} {seen : List String},
    items[j]? = some (.obj e) → read (i + j) (entry area (i + j) e') = read (i + j) (entry area (i + j) e) →
      walk area key repeated read (fun _ a => finish a) seen i (items.set j (.obj e')) =
        walk area key repeated read (fun _ a => finish a) seen i items := by
  intro items
  induction items with
  | nil => exact fun here => absurd here (by simp)
  | cons v vs ih =>
      intro i j seen here same
      cases j with
      | zero =>
          obtain rfl : v = .obj e := by simpa using here
          have same : read i (entry area i e') = read i (entry area i e) := same
          have turned (e : Fields) : entryAt area i (.obj e) = pure (some (entry area i e)) := rfl
          simp only [List.set_cons_zero, walk, turned, Checked.start, same]
          rfl
      | succ j =>
          have rest (seen : List String) := @ih (i + 1) j seen (by simpa using here) (by
            rw [Nat.add_assoc, Nat.add_comm 1 j]
            exact same)
          simp only [List.set_cons_succ, walk, rest]

theorem reading_subset_walk (e : Fields) (vs : List Value) (i : Nat) (seen : List String) :
    (read i (entry area i e)).issues ⊆
      (walk area key repeated read (fun _ a => finish a) seen i (.obj e :: vs)).issues := by
  have turned : entryAt area i (.obj e) = pure (some (entry area i e)) := rfl
  simp only [walk, turned, Checked.start, Checked.issues_bind]
  exact List.subset_append_left _ _

/-- Whatever a walk finds in an entry, it goes on behind it. -/
theorem onward_subset_walk (v : Value) (vs : List Value) (i : Nat) (seen : List String) :
    ∃ onward, (walk area key repeated read (fun _ a => finish a) onward (i + 1) vs).issues ⊆
      (walk area key repeated read (fun _ a => finish a) seen i (v :: vs)).issues := by
  cases v with
  | obj e =>
      have turned : entryAt area i (.obj e) = pure (some (entry area i e)) := rfl
      simp only [walk, turned, Checked.start, Checked.issues_bind]
      cases (read i (entry area i e)).value.1 with
      | none => exact ⟨seen, List.subset_append_right _ _⟩
      | some name =>
          dsimp only
          split
          · refine ⟨seen, ?_⟩
            simp
          · refine ⟨name :: seen, ?_⟩
            cases (read i (entry area i e)).value.2 with
            | none => exact List.subset_append_right _ _
            | some item => simp
  | _ => exact ⟨seen, List.subset_append_right _ _⟩

theorem mem_issues_walk {issue : Issue} {e : Fields} : ∀ {items : List Value} {i j : Nat} {seen : List String},
    items[j]? = some (.obj e) → issue ∈ (read (i + j) (entry area (i + j) e)).issues →
      issue ∈ (walk area key repeated read (fun _ a => finish a) seen i items).issues := by
  intro items
  induction items with
  | nil => exact fun here => absurd here (by simp)
  | cons v vs ih =>
      intro i j seen here told
      cases j with
      | zero =>
          obtain rfl : v = .obj e := by simpa using here
          exact reading_subset_walk e vs i seen told
      | succ j =>
          obtain ⟨onward, ahead⟩ := onward_subset_walk v vs i seen
          refine ahead (ih (by simpa using here) ?_)
          rw [Nat.add_assoc, Nat.add_comm 1 j]
          exact told

end Walks

/-! ## Documents -/

/-- Two documents in their one shape, of which the second has a list of one where a crew of the first has a
lone text. -/
structure Relists (key s : String) (i : Nat) (e : Fields) (items : List Value) (fields other : Fields) : Prop where
  part : key = "agents" ∨ key = "tasks"
  loneAt : LoneAt key s items i e
  crews : fields.get? "crews" = some (.arr items)
  changed : other.get? "crews" = some (.arr (items.set i (.obj (relisted key s e))))

section Crews
variable {fields other e : Fields} {items : List Value} {key s : String} {i : Nat}

theorem sectionItems_of_list {area : Section} (list : fields.get? area.key = some (.arr items))
    (someItem : items ≠ []) : sectionItems area fields = pure items := by
  cases items with
  | nil => exact absurd rfl someItem
  | cons v vs => simp [sectionItems, list, Option.filter, Value.isNull]

theorem readCrews_of_list (list : fields.get? "crews" = some (.arr items)) (someItem : items ≠ [])
    (agents : List AgentSpec) (tasks : List TaskSpec) :
    readCrews agents tasks fields =
      walk .crews "name" .duplicateName (readCrew agents tasks) (fun _ c => pure c) [] 0 items := by
  rw [readCrews, sectionItems_of_list list someItem]
  rfl

theorem Relists.someItem (relists : Relists key s i e items fields other) : items ≠ [] := by
  rintro rfl
  cases relists.loneAt.entry

theorem Relists.lone (relists : Relists key s i e items fields other) :
    (entry .crews (0 + i) e).get? key = some (.str s) := by
  simp [Entry.get?, entry, relists.loneAt.lone, Option.filter, Value.isNull]

theorem Relists.readCrews (relists : Relists key s i e items fields other) (shown : Text.isBlankText s = false)
    (agents : List AgentSpec) (tasks : List TaskSpec) :
    readCrews agents tasks other = Spec.readCrews agents tasks fields := by
  rw [readCrews_of_list relists.crews relists.someItem, readCrews_of_list relists.changed (by
    simpa using relists.someItem)]
  exact walk_set relists.loneAt.entry (readCrew_relisted relists.part relists.lone shown (0 + i))

theorem Relists.blamed (relists : Relists key s i e items fields other) (blank : Text.isBlankText s = true)
    (orchestration : Orchestration) :
    ⟨.crews, [.key "crews", .item i, .key key, .item 0], .blankItem⟩ ∈
      (checkDocument ⟨other, orchestration⟩).issues := by
  have told (agents : List AgentSpec) (tasks : List TaskSpec) :
      ⟨.crews, [.key "crews", .item i, .key key, .item 0], .blankItem⟩ ∈
        (Spec.readCrews agents tasks other).issues := by
    rw [readCrews_of_list relists.changed (by simpa using relists.someItem)]
    refine mem_issues_walk (j := i) (e := relisted key s e) ?_ ?_
    · simp [(List.getElem?_eq_some_iff.mp relists.loneAt.entry).1]
    · rw [Nat.zero_add]
      exact blamed_readCrew_relisted (e := entry .crews i e) relists.part blank i
  simp only [checkDocument, Checked.issues_bind, List.mem_append]
  exact .inr (.inr (.inl (told _ _)))

theorem Relists.not_blamed (relists : Relists key s i e items fields other) (orchestration : Orchestration) :
    ⟨.crews, [.key "crews", .item i, .key key, .item 0], .blankItem⟩ ∉
      (checkDocument ⟨fields, orchestration⟩).issues := by
  intro told
  rcases points_of_checkDocument _ _ told .crews i [.key key, .item 0] rfl with
    ⟨v, here, tells⟩ | ⟨p, v, _, refers, _⟩
  · have raw : entriesOf fields .crews = items := by
      simp [entriesOf, Section.key, relists.crews, Value.items?]
    rw [raw, relists.loneAt.entry] at here
    cases here
    have wrote : written (.obj e) key = some (.str s) := by
      simp [written, Value.get?, Value.fields?, relists.loneAt.lone, Option.filter, Value.isNull]
    cases tells with
    | field ruled broken =>
        rw [wrote] at broken
        cases broken with
        | notCount broken => cases broken
  · cases refers

/-- With nothing else changed, the outcome changes exactly when the text is blank. -/
theorem Relists.validate_eq_iff (relists : Relists key s i e items fields other)
    (alike : (∀ agents tasks, Spec.readCrews agents tasks other = Spec.readCrews agents tasks fields) →
      Alike fields other) (orchestration : Orchestration) :
    validate ⟨fields, orchestration⟩ = validate ⟨other, orchestration⟩ ↔ Text.isBlankText s = false := by
  constructor
  · intro same
    rw [Bool.eq_false_iff]
    intro blank
    have blamed := relists.blamed blank orchestration
    have unblamed := relists.not_blamed orchestration
    have failed : validate ⟨other, orchestration⟩ = .error (.schema (checkDocument ⟨other, orchestration⟩).issues) :=
      if_neg (by simpa using List.ne_nil_of_mem blamed)
    rw [failed] at same
    exact unblamed (issues_of_validate same ▸ blamed)
  · intro shown
    exact (validate_congr (alike (relists.readCrews shown)) orchestration).symm

end Crews

section Documents
variable {fields : Fields} {key s : String} {i : Nat} {v : Value}

def listedUnder (area s : String) (rest : Path) (fields : Fields) : Fields :=
  changeField area (putAt (.arr [.str s]) rest) fields

theorem alike_listedUnder {area : String} {rest : Path}
    (apart : area ≠ "agents" ∧ area ≠ "name" ∧ area ≠ "flow" ∧ area ≠ "state")
    (tasks : (normalize (listedUnder area s rest fields)).get? "tasks" = (normalize fields).get? "tasks")
    (methods : (normalize (listedUnder area s rest fields)).get? "flow_methods" =
      (normalize fields).get? "flow_methods")
    (crews : ∀ agents tasks, readCrews agents tasks (normalize (listedUnder area s rest fields)) =
      readCrews agents tasks (normalize fields)) :
    Alike (normalize fields) (normalize (listedUnder area s rest fields)) where
  agents := by
    simp only [Section.key, get?_agents_normalize, listedUnder, get?_changeField (Ne.symm apart.1)]
  tasks := tasks
  crews := crews
  name := by
    rw [get?_name_normalize, get?_name_normalize, listedUnder, get?_changeField (Ne.symm apart.2.1),
      documentName?_congr (get?_changeField (Ne.symm apart.2.1)) (get?_changeField (Ne.symm apart.2.2.1))]
  state := by
    simp only [Section.key, get?_state_normalize, listedUnder, get?_changeField (Ne.symm apart.2.2.2)]
  methods := methods

theorem crewsOf_listedUnder {area : String} {rest : Path} (one : "crew" ≠ area) (all : "crews" ≠ area) :
    crewsOf (listedUnder area s rest fields) = crewsOf fields := by
  rw [crewsOf, crewsOf, listedUnder, get?_changeField one, get?_changeField all]

theorem alike_of_context (there : fields.get? "tasks" = some v)
    (lone : valueAt? [.item i, .key "context"] v = some (.str s)) :
    Alike (normalize fields) (normalize (listedUnder "tasks" s [.item i, .key "context"] fields)) := by
  obtain ⟨items, e, rfl, loneAt, put⟩ := exists_loneAt lone
  have absorbs : listDefault "context" (listDefault "tools" (relisted "context" s e)) =
      listDefault "context" (listDefault "tools" e) := by
    rw [relisted, listDefault_insert loneAt.lone (by decide)]
    exact listDefault_relisted (by rw [get?_listDefault (by decide), loneAt.lone])
  refine alike_listedUnder (by decide) ?_ ?_ fun agents tasks => readCrews_congr ?_ agents tasks
  · rw [get?_tasks_normalize, get?_tasks_normalize, listedUnder, get?_changeField_self, there]
    rw [Option.map_some, Option.map_some, Option.map_some, put]
    exact congrArg some (mapEntries_set loneAt absorbs)
  · rw [get?_methods_normalize, get?_methods_normalize, listedUnder, get?_changeField (by decide)]
  · simp only [Section.key, get?_crews_normalize]
    exact crewsOf_listedUnder (by decide) (by decide)

theorem alike_of_methods {rest : Path} (there : fields.get? "flow_methods" = some v)
    (absorbs : mapEntries (listDefault "listen_to") (methodList (putAt (.arr [.str s]) rest v)) =
      mapEntries (listDefault "listen_to") (methodList v)) :
    Alike (normalize fields) (normalize (listedUnder "flow_methods" s rest fields)) := by
  refine alike_listedUnder (by decide) ?_ ?_ fun agents tasks => readCrews_congr ?_ agents tasks
  · rw [get?_tasks_normalize, get?_tasks_normalize, listedUnder, get?_changeField (by decide)]
  · rw [get?_methods_normalize, get?_methods_normalize, listedUnder, get?_changeField_self, there]
    simp only [Option.map_some, absorbs]
  · simp only [Section.key, get?_crews_normalize]
    exact crewsOf_listedUnder (by decide) (by decide)

theorem alike_of_method (there : fields.get? "flow_methods" = some v)
    (lone : valueAt? [.item i, .key "listen_to"] v = some (.str s)) :
    Alike (normalize fields) (normalize (listedUnder "flow_methods" s [.item i, .key "listen_to"] fields)) := by
  obtain ⟨items, e, rfl, loneAt, put⟩ := exists_loneAt lone
  refine alike_of_methods there ?_
  rw [put]
  exact mapEntries_set loneAt (listDefault_relisted loneAt.lone)

theorem alike_of_named {name : String} (there : fields.get? "flow_methods" = some v)
    (lone : valueAt? [.key name, .key "listen_to"] v = some (.str s)) :
    Alike (normalize fields) (normalize (listedUnder "flow_methods" s [.key name, .key "listen_to"] fields)) := by
  obtain ⟨x, entry, found⟩ := Option.bind_eq_some_iff.mp lone
  obtain ⟨e, rfl, listens⟩ := exists_lone found
  cases v with
  | obj methods =>
      refine alike_of_methods there ?_
      have put : putAt (.arr [.str s]) [.key name, .key "listen_to"] (.obj methods) =
          .obj (Fields.insert methods name (.obj (relisted "listen_to" s e))) := by
        have found : Fields.get? methods name = some (.obj e) := entry
        have inner := putAt_lone listens (.arr [.str s])
        rw [putAt, changeField, found]
        exact congrArg (fun x => Value.obj (Fields.insert methods name x)) inner
      rw [put]
      exact mapEntries_methodList_insert entry listens
  | _ => cases entry

theorem alike_of_crews {area : String} {rest : Path} (single : area = "crews" ∨ area = "crew")
    (crews : ∀ agents tasks, readCrews agents tasks (normalize (listedUnder area s rest fields)) =
      readCrews agents tasks (normalize fields)) :
    Alike (normalize fields) (normalize (listedUnder area s rest fields)) := by
  refine alike_listedUnder (by rcases single with rfl | rfl <;> decide) ?_ ?_ crews
  · rw [get?_tasks_normalize, get?_tasks_normalize, listedUnder, get?_changeField]
    rcases single with rfl | rfl <;> decide
  · rw [get?_methods_normalize, get?_methods_normalize, listedUnder, get?_changeField]
    rcases single with rfl | rfl <;> decide

theorem relists_of_crews (part : key = "agents" ∨ key = "tasks") (there : fields.get? "crews" = some v)
    (lone : valueAt? [.item i, .key key] v = some (.str s)) :
    ∃ items e, Relists key s i e items (normalize fields)
      (normalize (listedUnder "crews" s [.item i, .key key] fields)) := by
  obtain ⟨items, e, rfl, loneAt, put⟩ := exists_loneAt lone
  refine ⟨items, e, part, loneAt, ?_, ?_⟩
  · rw [get?_crews_normalize, crewsOf, there]
    rfl
  · rw [get?_crews_normalize, crewsOf, listedUnder, get?_changeField_self, there, Option.map_some, put]
    rfl

theorem relists_of_crew {rest : Path} (part : key = "agents" ∨ key = "tasks")
    (bare : ((fields.get? "crews").filter fun v => !v.isNull) = none) (there : fields.get? "crew" = some v)
    {items : List Value} {e : Fields} (list : crewList v = .arr items) (loneAt : LoneAt key s items i e)
    (put : crewList (putAt (.arr [.str s]) rest v) = .arr (items.set i (.obj (relisted key s e)))) :
    Relists key s i e items (normalize fields) (normalize (listedUnder "crew" s rest fields)) := by
  refine ⟨part, loneAt, ?_, ?_⟩
  · rw [get?_crews_normalize, crewsOf, bare, there]
    simp [list]
  · rw [get?_crews_normalize, crewsOf, listedUnder, get?_changeField (by decide), bare, get?_changeField_self,
      there]
    simp [put]

theorem crewsOf_of_crews {rest : Path} {crews : Value}
    (given : ((fields.get? "crews").filter fun v => !v.isNull) = some crews) :
    crewsOf (listedUnder "crew" s rest fields) = crewsOf fields := by
  rw [crewsOf, crewsOf, listedUnder, get?_changeField (by decide), given]
  rfl

theorem validate_eq_of_relists {items : List Value} {e : Fields} {area : String} {rest : Path}
    (relists : Relists key s i e items (normalize fields) (normalize (listedUnder area s rest fields)))
    (single : area = "crews" ∨ area = "crew") (orchestration : Orchestration) :
    validate ⟨normalize fields, orchestration⟩ = validate ⟨normalize (listedUnder area s rest fields), orchestration⟩ ↔
      Text.isBlankText s = false :=
  relists.validate_eq_iff (alike_of_crews single) orchestration

theorem validate_eq_of_crew {rest : Path} (part : key = "agents" ∨ key = "tasks")
    (there : fields.get? "crew" = some v) {items : List Value} {e : Fields} (list : crewList v = .arr items)
    (loneAt : LoneAt key s items i e)
    (put : crewList (putAt (.arr [.str s]) rest v) = .arr (items.set i (.obj (relisted key s e))))
    (orchestration : Orchestration) :
    validate ⟨normalize fields, orchestration⟩ = validate ⟨normalize (listedUnder "crew" s rest fields), orchestration⟩ ↔
      ¬(InCrew fields (.key "crew" :: rest) ∧ Text.isBlankText s = true) := by
  cases given : (fields.get? "crews").filter fun v => !v.isNull with
  | none =>
      rw [validate_eq_of_relists (relists_of_crew part given there list loneAt put) (.inr rfl)]
      simp [InCrew, given]
  | some crews =>
      have same : (normalize (listedUnder "crew" s rest fields)).get? "crews" =
          (normalize fields).get? "crews" := by
        rw [get?_crews_normalize, get?_crews_normalize, crewsOf_of_crews given]
      have alike := alike_of_crews (.inr rfl) (readCrews_congr same)
      exact iff_of_true (validate_congr alike orchestration).symm (by simp [InCrew, given])

/-- In one place a list of one is not read as the lone text is: a blank text in a crew. -/
theorem validate_eq_iff {area : String} {rest : Path} (takes : TakesNames (.key area :: rest))
    (lone : valueAt? (.key area :: rest) (.obj fields) = some (.str s)) (orchestration : Orchestration) :
    validate ⟨normalize fields, orchestration⟩ = validate ⟨normalize (listedUnder area s rest fields), orchestration⟩ ↔
      ¬(InCrew fields (.key area :: rest) ∧ Text.isBlankText s = true) := by
  obtain ⟨v, there, inner⟩ := Option.bind_eq_some_iff.mp lone
  cases takes with
  | context i =>
      exact iff_of_true (validate_congr (alike_of_context there inner) orchestration).symm (by simp [InCrew])
  | method i =>
      exact iff_of_true (validate_congr (alike_of_method there inner) orchestration).symm (by simp [InCrew])
  | named name =>
      exact iff_of_true (validate_congr (alike_of_named there inner) orchestration).symm (by simp [InCrew])
  | crews i part =>
      obtain ⟨items, e, relists⟩ := relists_of_crews part there inner
      rw [validate_eq_of_relists relists (.inl rfl)]
      simp [InCrew]
  | crewList i part =>
      obtain ⟨items, e, rfl, loneAt, put⟩ := exists_loneAt inner
      exact validate_eq_of_crew part there rfl loneAt (by rw [put]; rfl) orchestration
  | crew part =>
      obtain ⟨e, rfl, alone⟩ := exists_lone inner
      refine validate_eq_of_crew (i := 0) part there rfl ⟨rfl, alone⟩ ?_ orchestration
      rw [putAt_lone alone]
      rfl

end Documents

/-- A lone text means a list of one in every field that takes a list of names, with one exception: in a crew
a blank text is not blamed when it stands alone, and is as an item of a list. -/
theorem lone_text_means_list_iff {text text' : String} {fields fields' : Fields}
    (read : readMapping text = .ok fields) (read' : readMapping text' = .ok fields') {place : Path} {s : String}
    (takes : TakesNames place) (lone : valueAt? place (.obj fields) = some (.str s))
    (listed : putAt (.arr [.str s]) place (.obj fields) = .obj fields') (wish : Option String) :
    check text wish = check text' wish ↔
      ¬((∃ orchestration, orchestrationOf fields wish = .ok orchestration) ∧ InCrew fields place ∧
        Text.isBlankText s = true) := by
  obtain ⟨area, rest, rfl, other⟩ : ∃ area rest, place = .key area :: rest ∧ area ≠ "orchestration_type" := by
    cases takes <;> exact ⟨_, _, rfl, by decide⟩
  obtain rfl : listedUnder area s rest fields = fields' := by
    injection listed
  have kind : orchestrationOf (listedUnder area s rest fields) wish = orchestrationOf fields wish :=
    orchestrationOf_congr (get?_changeField (Ne.symm other)) wish
  rw [check_of_readMapping read, check_of_readMapping read', kind]
  cases orchestrationOf fields wish with
  | error e => simp [Except.bind]
  | ok orchestration =>
      simp only [Except.bind, Except.ok.injEq, exists_eq', true_and]
      exact validate_eq_iff takes lone orchestration

def staffed (agents : String) : String :=
  "agents: [\x7brole: a, goal: b, backstory: c\x7d]\n" ++
  "tasks: [\x7bname: t, description: d, expected_output: e\x7d]\n" ++
  "crews: [\x7bagents: " ++ agents ++ "\x7d]\n"

def staff (agents : Value) : Fields :=
  [("agents", .arr [.obj [("role", .str "a"), ("goal", .str "b"), ("backstory", .str "c")]]),
    ("tasks", .arr [.obj [("name", .str "t"), ("description", .str "d"), ("expected_output", .str "e")]]),
    ("crews", .arr [.obj [("agents", agents)]])]

set_option maxRecDepth 20000 in
theorem padded_text_means_list :
    readMapping (staffed "' a '") = .ok (staff (.str " a ")) ∧
      readMapping (staffed "[' a ']") = .ok (staff (.arr [.str " a "])) ∧
      check (staffed "' a '") (some "crew") = check (staffed "[' a ']") (some "crew") := by
  have alone : readMapping (staffed "' a '") = .ok (staff (.str " a ")) := by with_unfolding_all rfl
  have listed : readMapping (staffed "[' a ']") = .ok (staff (.arr [.str " a "])) := by with_unfolding_all rfl
  refine ⟨alone, listed, (lone_text_means_list_iff alone listed (.crews 0 (.inl rfl)) rfl rfl _).mpr ?_⟩
  rintro ⟨_, _, blank⟩
  exact absurd blank (by decide +kernel)

set_option maxRecDepth 20000 in
/-- A document with a blank text for the agents of its crew is accepted, and refused with a list of it. -/
theorem blank_text_not_blamed :
    readMapping (staffed "' '") = .ok (staff (.str " ")) ∧
      readMapping (staffed "[' ']") = .ok (staff (.arr [.str " "])) ∧
      TakesNames [.key "crews", .item 0, .key "agents"] ∧
      valueAt? [.key "crews", .item 0, .key "agents"] (.obj (staff (.str " "))) = some (.str " ") ∧
      putAt (.arr [.str " "]) [.key "crews", .item 0, .key "agents"] (.obj (staff (.str " "))) =
        .obj (staff (.arr [.str " "])) ∧
      check (staffed "' '") (some "crew") ≠ check (staffed "[' ']") (some "crew") := by
  have alone : readMapping (staffed "' '") = .ok (staff (.str " ")) := by with_unfolding_all rfl
  have listed : readMapping (staffed "[' ']") = .ok (staff (.arr [.str " "])) := by with_unfolding_all rfl
  refine ⟨alone, listed, .crews 0 (.inl rfl), rfl, rfl, fun same => ?_⟩
  rw [check_of_readMapping alone, check_of_readMapping listed] at same
  have outcomes := congrArg (fun outcome => outcome.toOption.isSome) same
  exact absurd outcomes (by decide +kernel)

end CrewFlow.Spec
