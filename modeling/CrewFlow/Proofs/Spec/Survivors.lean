import Mathlib
import CrewFlow.Proofs.Spec.Pointing
/-!
# Survivors

What a walk through a section gets, exactly: one item for each entry that is kept, and no other. Where reading
is silent, all that a walk says is what it says to finish the items of these entries. So the names of what is
read in a section are the names that its kept entries take.
-/
set_option autoImplicit false

namespace CrewFlow.Spec

open Json (Value Fields)

@[simp]
theorem Checked.value_reject {α : Type} (s : Section) (path : Path) (reason : Reason) :
    (Checked.reject s path reason : Checked (Option α)).value = none := rfl

theorem entryAt_eq (s : Section) (i : Nat) (v : Value) :
    (∃ fields, entryAt s i v = pure (some (entry s i fields))) ∨
      entryAt s i v = Checked.reject s [.key s.key, .item i] (.wrongKind "a mapping" v.kind) := by
  cases v with
  | obj fields => exact .inl ⟨fields, rfl⟩
  | _ => exact .inr rfl

section Walks
variable {α β : Type} (s : Section) (read : Nat → Entry → Checked (Option String × Option α)) (raw : List Value)

/-- An entry that is kept, with the item that is read from it. -/
structure Survives (p : Nat) (fields : Fields) (a : α) : Prop where
  here : raw[p]? = some (.obj fields)
  item : (read p (entry s p fields)).value.2 = some a
  keeps : kept s raw p = true

variable {s read raw} {finish : Entry → α → Checked β}

theorem exists_survives (reads : Reads s read) {p : Nat} (keeps : kept s raw p = true) :
    ∃ fields a, Survives s read raw p fields a := by
  cases taken : takenAt s raw p with
  | none => simp [kept_of_nameless taken] at keeps
  | some name =>
      obtain ⟨v, here, named⟩ := Option.bind_eq_some_iff.mp taken
      cases shape : v.fields? with
      | none => simp [takenName_of_shape shape] at named
      | some fields =>
          obtain rfl := eq_obj_of_fields? shape
          have full := ((kept_iff here named).mp keeps).1
          rw [← reads.item p fields name named, Option.isSome_iff_exists] at full
          obtain ⟨a, item⟩ := full
          exact ⟨fields, a, here, item, keeps⟩

theorem mem_walk_of_survives (reads : Reads s read) {p : Nat} {fields : Fields} {a : α}
    (survives : Survives s read raw p fields a) : ∀ {items : List Value} {names : List String} {i : Nat},
      raw.drop i = items → Seen s raw i names → i ≤ p →
        (finish (entry s p fields) a).value ∈
          (walk s s.nameKey s.repetition read finish names i items).value := by
  -- By induction on the entries that are left; the first of them is at place `i`.
  intro items
  induction items with
  | nil =>
      intro names i suffix _ after
      have inside := List.getElem?_eq_some_iff.mp survives.here
      have ended := List.drop_eq_nil_iff.mp suffix
      exact absurd inside.1 (by omega)
  | cons v vs ih =>
      intro names i suffix seen after
      obtain ⟨here, rest⟩ := head_of_drop suffix
      obtain ⟨onward, known, turn⟩ := turn_of_walk finish vs reads here seen
      obtain ⟨head, yields, value⟩ := turn.value
      rw [value, List.mem_append]
      rcases Nat.eq_or_lt_of_le after with rfl | later
      · left
        cases yields with
        | nothing out => exact absurd survives.keeps (by simp [out])
        | item there item _ =>
            obtain ⟨⟩ := Option.some.inj (there.symm.trans survives.here)
            obtain rfl := Option.some.inj (item.symm.trans survives.item)
            simp
      · exact .inr (ih rest known later)

/-- A walk gets what finishing makes of the kept entries. -/
theorem mem_walk_iff (reads : Reads s read) {b : β} :
    b ∈ (walk s s.nameKey s.repetition read finish [] 0 raw).value ↔
      ∃ p fields a, Survives s read raw p fields a ∧ (finish (entry s p fields) a).value = b := by
  constructor
  · intro member
    obtain ⟨j, found⟩ := List.mem_iff_getElem?.mp member
    obtain ⟨p, yields, _⟩ := yields_of_walk reads List.drop_zero seen_nil found
    cases yields with
    | item here item keeps => exact ⟨p, _, _, ⟨here, item, keeps⟩, rfl⟩
  · rintro ⟨p, fields, a, survives, rfl⟩
    exact mem_walk_of_survives reads survives List.drop_zero seen_nil (Nat.zero_le p)

/-- What is silent on entries that are no mapping, in reading and on repeated names, is silent on a walk when
it is silent on each finish. -/
theorem each_walk_finish {P : Issue → Prop} {key : String} {repeated : String → Reason}
    (shape : ∀ path kind, P ⟨s, path, .wrongKind "a mapping" kind⟩) (reading : ∀ i e, (read i e).Each P)
    (again : ∀ path name, P ⟨s, path, repeated name⟩) (names : List String) (i : Nat) (items : List Value) :
    (walk s key repeated read finish names i items).Each P ↔
      ∀ c ∈ (walk s key repeated read (fun e a => pure (finish e a)) names i items).value, c.Each P := by
  induction items generalizing names i with
  | nil => simp [walk]
  | cons v vs ih =>
      rcases entryAt_eq s i v with ⟨fields, turned⟩ | turned
      · cases named : (read i (entry s i fields)).value.1 with
        | none => simpa [walk, turned, reading, named] using ih names (i + 1)
        | some name =>
            by_cases known : name ∈ names
            · simpa [walk, turned, reading, named, known, again] using ih names (i + 1)
            · cases item : (read i (entry s i fields)).value.2 with
              | none => simpa [walk, turned, reading, named, known, item] using ih (name :: names) (i + 1)
              | some a => simp [walk, turned, reading, named, known, item, ih]
      · simpa [walk, turned, shape] using ih names (i + 1)

theorem each_walk_iff (reads : Reads s read) {P : Issue → Prop}
    (shape : ∀ path kind, P ⟨s, path, .wrongKind "a mapping" kind⟩) (reading : ∀ i e, (read i e).Each P)
    (again : ∀ path name, P ⟨s, path, s.repetition name⟩) :
    (walk s s.nameKey s.repetition read finish [] 0 raw).Each P ↔
      ∀ p fields a, Survives s read raw p fields a → (finish (entry s p fields) a).Each P := by
  rw [each_walk_finish shape reading again]
  constructor
  · intro each p fields a survives
    exact each _ ((mem_walk_iff reads).mpr ⟨p, fields, a, survives, rfl⟩)
  · intro each c member
    obtain ⟨p, fields, a, survives, rfl⟩ := (mem_walk_iff reads).mp member
    exact each p fields a survives

end Walks

/-! ## Names of what is read -/

/-- A section keeps a name when an entry that takes the name is kept. -/
def Keeps (doc : Fields) (s : Section) (name : String) : Prop :=
  ∃ p, takenAt s (entriesOf doc s) p = some name ∧ kept s (entriesOf doc s) p = true

section Names
variable {doc : Fields} {name : String}

/-- When each item has the name that its entry takes, the names of the items are those that are kept. -/
theorem named_walk_iff {α β : Type} {s : Section} {read : Nat → Entry → Checked (Option String × Option α)}
    {finish : Entry → α → Checked β} (reads : Reads s read) {named : β → String}
    (names : ∀ p fields a, (read p (entry s p fields)).value.2 = some a →
      takenName s p (.obj fields) = some (named (finish (entry s p fields) a).value)) :
    (∃ b ∈ (walk s s.nameKey s.repetition read finish [] 0 (entriesOf doc s)).value, named b = name) ↔
      Keeps doc s name := by
  constructor
  · rintro ⟨b, member, rfl⟩
    obtain ⟨p, fields, a, ⟨here, item, keeps⟩, rfl⟩ := (mem_walk_iff reads).mp member
    exact ⟨p, by rw [takenAt, here, Option.bind_some, names p fields a item], keeps⟩
  · rintro ⟨p, taken, keeps⟩
    obtain ⟨fields, a, survives⟩ := exists_survives reads keeps
    refine ⟨_, (mem_walk_iff reads).mpr ⟨p, fields, a, survives, rfl⟩, ?_⟩
    rw [takenAt, survives.here, Option.bind_some, names p fields a survives.item] at taken
    exact Option.some.inj taken

theorem role_of_readAgent {p : Nat} {fields : Fields} {a : AgentSpec}
    (item : (readAgent p (entry .agents p fields)).value.2 = some a) :
    takenName .agents p (.obj fields) = some a.role := by
  simp only [readAgent, Checked.value_bind, Checked.value_pure, said_of_requiredText, Option.bind_eq_bind,
    Option.bind_eq_some_iff] at item
  obtain ⟨role, said, _, _, _, _, ⟨⟩⟩ := item
  exact said

theorem name_of_readMethod {p : Nat} {fields : Fields} {m : MethodSpec}
    (item : (readMethod p (entry .methods p fields)).value.2 = some m) :
    takenName .methods p (.obj fields) = some m.name := by
  rw [value_readMethod] at item
  simp only [Option.bind_eq_bind, Option.bind_eq_some_iff] at item
  obtain ⟨name, named, kind, kindly, ⟨⟩⟩ := item
  rw [takenName, kindly]
  exact named

theorem role_mem_readAgents_iff : (∃ a ∈ (readAgents doc).value, a.role = name) ↔ Keeps doc .agents name := by
  rw [readAgents, Checked.value_bind, (points_of_sectionItems doc .agents).1]
  exact named_walk_iff reads_agents fun _ _ _ => role_of_readAgent

theorem name_mem_readCrews_iff {agents : List AgentSpec} {tasks : List TaskSpec} :
    (∃ c ∈ (readCrews agents tasks doc).value, c.name = name) ↔ Keeps doc .crews name := by
  rw [readCrews, Checked.value_bind, (points_of_sectionItems doc .crews).1]
  refine named_walk_iff (reads_crews agents tasks) fun p fields c item => ?_
  rw [← (reads_crews agents tasks).name]
  obtain ⟨⟩ := Option.some.inj item
  rfl

theorem name_mem_methods_iff {crews : List CrewSpec} {state : List FieldSpec} :
    (∃ m ∈ (walk .methods Section.methods.nameKey Section.methods.repetition readMethod
      (finishMethod crews state) [] 0 (entriesOf doc .methods)).value, m.name = name) ↔
      Keeps doc .methods name := by
  refine named_walk_iff reads_methods fun p fields m item => ?_
  rw [value_finishMethod]
  exact name_of_readMethod item

end Names

end CrewFlow.Spec
