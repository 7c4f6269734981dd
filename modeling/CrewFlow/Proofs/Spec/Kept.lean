import Mathlib
import CrewFlow.Proofs.Spec.Rules
/-!
# Kept entries

Which entries of a section a walk keeps, told from the entries alone: an entry takes a name, and is kept when
it is whole and no entry before it took the name. A walk blames each entry where the document has it. What it
keeps stands closer together: an entry moves to the front by the entries before it that were left out.
-/
set_option autoImplicit false

namespace CrewFlow.Spec

open Json (Value Fields)

/-! ## Names and places -/

def Section.nameKey : Section → String
  | .agents => "role"
  | _ => "name"

/-- What is said of an entry that repeats a name. -/
def Section.repetition : Section → String → Reason
  | .agents => .duplicateRole
  | .methods => .duplicateMethod
  | _ => .duplicateName

/-- The texts that every entry of a section needs. -/
def Section.required : Section → List String
  | .agents => ["role", "goal", "backstory"]
  | .tasks => ["name", "description", "expected_output"]
  | .methods => ["name", "type"]
  | _ => []

/-- The name that the entry at a place takes. A method takes none before its kind is known; a crew without a
name takes its number. -/
def takenName (s : Section) (p : Nat) (v : Value) : Option String :=
  match s with
  | .agents => said v "role"
  | .tasks => said v "name"
  | .crews => v.fields?.map fun _ => (said v "name").getD ("crew_" ++ toString (p + 1))
  | .methods => (kindSaid v).bind fun _ => said v "name"
  | .tools => none
  | .state => none

/-- Whether an entry has every text that it needs. -/
def whole (s : Section) (v : Value) : Bool := s.required.all fun key => (said v key).isSome

section Places
variable (s : Section) (raw : List Value)

/-- The name that is taken at a place. -/
def takenAt (p : Nat) : Option String := raw[p]?.bind (takenName s p)

/-- Whether the entry at a place is kept: it takes a name that no entry before it took, and is whole. -/
def kept (p : Nat) : Bool :=
  (takenAt s raw p).isSome && raw[p]?.any (whole s) &&
    (List.range p).all fun q => takenAt s raw q != takenAt s raw p

def keptBefore (p : Nat) : Nat := (List.range p).countP (kept s raw)

variable {s raw}

theorem eq_obj_of_fields? {v : Value} {fields : Fields} (shape : v.fields? = some fields) : v = .obj fields := by
  cases v <;> first | (cases shape; rfl) | cases shape

theorem takenName_of_shape {p : Nat} {v : Value} (other : v.fields? = none) : takenName s p v = none := by
  have silent : ∀ key, said v key = none := by
    intro key
    rw [said, written, Value.get?, other]
    rfl
  cases s <;> simp [takenName, kindSaid, silent, other]

theorem kept_iff {p : Nat} {v : Value} {name : String} (here : raw[p]? = some v)
    (named : takenName s p v = some name) :
    kept s raw p = true ↔ whole s v = true ∧ ∀ q < p, takenAt s raw q ≠ some name := by
  have taken : takenAt s raw p = some name := by rw [takenAt, here, Option.bind_some, named]
  simp [kept, taken, here]

theorem kept_of_nameless {p : Nat} (nameless : takenAt s raw p = none) : kept s raw p = false := by
  simp [kept, nameless]

theorem keptBefore_succ (p : Nat) :
    keptBefore s raw (p + 1) = keptBefore s raw p + if kept s raw p then 1 else 0 := by
  simp only [keptBefore, List.range_succ, List.countP_append, List.countP_singleton]

theorem keptBefore_of_kept {p : Nat} (keeps : kept s raw p = true) :
    keptBefore s raw (p + 1) = keptBefore s raw p + 1 := by
  rw [keptBefore_succ, keeps]
  rfl

theorem keptBefore_of_out {p : Nat} (out : kept s raw p = false) :
    keptBefore s raw (p + 1) = keptBefore s raw p := by
  rw [keptBefore_succ, out]
  rfl

/-- An entry keeps its place exactly when everything before it is kept. -/
theorem keptBefore_eq_iff (p : Nat) : keptBefore s raw p = p ↔ ∀ q < p, kept s raw q = true := by
  simpa [keptBefore] using (List.countP_eq_length (p := kept s raw) (l := List.range p))

end Places

/-! ## Walks -/

def entry (s : Section) (p : Nat) (fields : Fields) : Entry := ⟨s, [.key s.key, .item p], fields⟩

def Seen (s : Section) (raw : List Value) (i : Nat) (names : List String) : Prop :=
  ∀ name, name ∈ names ↔ ∃ q < i, takenAt s raw q = some name

section Seen
variable {s : Section} {raw : List Value} {i : Nat} {names : List String}

theorem seen_nil : Seen s raw 0 [] := by
  simp [Seen]

theorem Seen.skip (seen : Seen s raw i names) (known : ∀ name ∈ takenAt s raw i, name ∈ names) :
    Seen s raw (i + 1) names := by
  intro name
  rw [seen name]
  constructor
  · rintro ⟨q, earlier, taken⟩
    exact ⟨q, Nat.lt_succ_of_lt earlier, taken⟩
  · rintro ⟨q, earlier, taken⟩
    rcases Nat.lt_succ_iff_lt_or_eq.mp earlier with before | rfl
    · exact ⟨q, before, taken⟩
    · exact (seen name).mp (known name taken)

theorem Seen.cons (seen : Seen s raw i names) {name : String} (taken : takenAt s raw i = some name) :
    Seen s raw (i + 1) (name :: names) := by
  intro other
  rw [List.mem_cons, seen other]
  constructor
  · rintro (rfl | ⟨q, earlier, same⟩)
    · exact ⟨i, Nat.lt_succ_self i, taken⟩
    · exact ⟨q, Nat.lt_succ_of_lt earlier, same⟩
  · rintro ⟨q, earlier, same⟩
    rcases Nat.lt_succ_iff_lt_or_eq.mp earlier with before | rfl
    · exact .inr ⟨q, before, same⟩
    · exact .inl (Option.some.inj (same.symm.trans taken))

end Seen

section Walks
variable {α β : Type} (s : Section) (read : Nat → Entry → Checked (Option String × Option α))
  (finish : Entry → α → Checked β) (raw : List Value)

/-- Reading takes the name of an entry, and gets an item from it exactly when the entry is whole. -/
structure Reads : Prop where
  name : ∀ p fields, (read p (entry s p fields)).value.1 = takenName s p (.obj fields)
  item : ∀ p fields name, takenName s p (.obj fields) = some name →
    (read p (entry s p fields)).value.2.isSome = whole s (.obj fields)

/-- What a walk may say of the entry at a place. -/
inductive Blamed (p : Nat) : Issue → Prop where
  | shape {v : Value} (here : raw[p]? = some v) (other : v.fields? = none) :
      Blamed p ⟨s, [.key s.key, .item p], .wrongKind "a mapping" v.kind⟩
  | reading {fields : Fields} {issue : Issue} (here : raw[p]? = some (.obj fields))
      (told : issue ∈ (read p (entry s p fields)).issues) : Blamed p issue
  | repeated {fields : Fields} {name : String} (here : raw[p]? = some (.obj fields))
      (named : takenName s p (.obj fields) = some name) (before : ∃ q < p, takenAt s raw q = some name) :
      Blamed p ⟨s, (entry s p fields).pathTo s.nameKey, s.repetition name⟩
  | finishing {fields : Fields} {a : α} {issue : Issue} (here : raw[p]? = some (.obj fields))
      (item : (read p (entry s p fields)).value.2 = some a)
      (told : issue ∈ (finish (entry s p fields) a).issues) : Blamed p issue

/-- What a walk gets from the entry at a place. -/
inductive Yields (p : Nat) : Option β → Prop where
  | nothing (out : kept s raw p = false) : Yields p none
  | item {fields : Fields} {a : α} (here : raw[p]? = some (.obj fields))
      (item : (read p (entry s p fields)).value.2 = some a) (keeps : kept s raw p = true) :
      Yields p (some (finish (entry s p fields) a).value)

/-- One turn of a walk: what it says and what it gets, before the walk goes on. -/
structure Turn (i : Nat) (now next : Checked (List β)) : Prop where
  value : ∃ head, Yields s read finish raw i head ∧ now.value = head.toList ++ next.value
  issues : ∃ told, (∀ issue ∈ told, Blamed s read finish raw i issue) ∧ now.issues = told ++ next.issues

variable {s read finish raw}

theorem Turn.skip {i : Nat} {now next : Checked (List β)} (told : List Issue) (out : kept s raw i = false)
    (blamed : ∀ issue ∈ told, Blamed s read finish raw i issue) (value : now.value = next.value)
    (issues : now.issues = told ++ next.issues) : Turn s read finish raw i now next :=
  ⟨⟨none, .nothing out, value⟩, ⟨told, blamed, issues⟩⟩

section Turns
variable {i : Nat} {vs : List Value} {names : List String}

theorem turn_of_shape {v : Value} (here : raw[i]? = some v) (shape : v.fields? = none) :
    Turn s read finish raw i (walk s s.nameKey s.repetition read finish names i (v :: vs))
      (walk s s.nameKey s.repetition read finish names (i + 1) vs) := by
  have nameless : takenAt s raw i = none := by
    rw [takenAt, here, Option.bind_some, takenName_of_shape shape]
  have turned : entryAt s i v = Checked.reject s [.key s.key, .item i] (.wrongKind "a mapping" v.kind) := by
    cases v <;> first | rfl | cases shape
  refine .skip [⟨s, [.key s.key, .item i], .wrongKind "a mapping" v.kind⟩] (kept_of_nameless nameless)
    ?_ ?_ ?_
  · intro issue told
    rw [List.mem_singleton.mp told]
    exact .shape here shape
  · rw [walk, turned]
    rfl
  · rw [walk, turned]
    rfl

theorem turn_of_fields (reads : Reads s read) {fields : Fields} (here : raw[i]? = some (.obj fields))
    (seen : Seen s raw i names) :
    ∃ onward, Seen s raw (i + 1) onward ∧
      Turn s read finish raw i (walk s s.nameKey s.repetition read finish names i (.obj fields :: vs))
        (walk s s.nameKey s.repetition read finish onward (i + 1) vs) := by
  have taken : takenAt s raw i = takenName s i (.obj fields) := by rw [takenAt, here, Option.bind_some]
  have turned : entryAt s i (.obj fields) = pure (some (entry s i fields)) := rfl
  have reading : ∀ issue ∈ (read i (entry s i fields)).issues, Blamed s read finish raw i issue :=
    fun issue told => .reading here told
  have first := reads.name i fields
  cases named : takenName s i (.obj fields) with
  | none =>
      rw [named] at first taken
      refine ⟨names, seen.skip (by simp [taken]), .skip _ (kept_of_nameless taken) reading ?_ ?_⟩
      · simp [walk, turned, first]
      · simp [walk, turned, first]
  | some name =>
      rw [named] at first taken
      have keeps := kept_iff here named
      -- The walk knows the name exactly when an entry before took it.
      by_cases known : name ∈ names
      · obtain ⟨q, earlier, same⟩ := (seen name).mp known
        have out : kept s raw i = false := by
          rw [Bool.eq_false_iff]
          exact fun keep => (keeps.mp keep).2 q earlier same
        have again : Blamed s read finish raw i
            ⟨s, (entry s i fields).pathTo s.nameKey, s.repetition name⟩ :=
          .repeated here named ⟨q, earlier, same⟩
        refine ⟨names, seen.skip (by simp [taken, known]), .skip _ out
          (List.forall_mem_append.mpr ⟨reading, List.forall_mem_singleton.mpr again⟩) ?_ ?_⟩
        · simp [walk, turned, first, known]
        · simp [walk, turned, first, known]
      · have fresh : ∀ q < i, takenAt s raw q ≠ some name := by
          intro q earlier same
          exact known ((seen name).mpr ⟨q, earlier, same⟩)
        have item := reads.item i fields name named
        refine ⟨name :: names, seen.cons taken, ?_⟩
        cases found : (read i (entry s i fields)).value.2 with
        | none =>
            have out : kept s raw i = false := by
              rw [Bool.eq_false_iff]
              intro keep
              simp [found, (keeps.mp keep).1] at item
            refine .skip _ out reading ?_ ?_
            · simp [walk, turned, first, known, found]
            · simp [walk, turned, first, known, found]
        | some a =>
            have keep : kept s raw i = true := keeps.mpr ⟨by simpa [found] using item.symm, fresh⟩
            have finishing : ∀ issue ∈ (finish (entry s i fields) a).issues,
                Blamed s read finish raw i issue := fun issue told => .finishing here found told
            refine ⟨⟨_, .item here found keep, ?_⟩,
              ⟨_, List.forall_mem_append.mpr ⟨reading, finishing⟩, ?_⟩⟩
            · simp [walk, turned, first, known, found]
            · simp [walk, turned, first, known, found]

/-- A walk takes one turn for each entry, and knows the names of all entries behind it. -/
theorem turn_of_walk (finish : Entry → α → Checked β) (vs : List Value) (reads : Reads s read) {v : Value}
    (here : raw[i]? = some v) (seen : Seen s raw i names) :
    ∃ onward, Seen s raw (i + 1) onward ∧
      Turn s read finish raw i (walk s s.nameKey s.repetition read finish names i (v :: vs))
        (walk s s.nameKey s.repetition read finish onward (i + 1) vs) := by
  cases shape : v.fields? with
  | none =>
      have nameless : takenAt s raw i = none := by
        rw [takenAt, here, Option.bind_some, takenName_of_shape shape]
      exact ⟨names, seen.skip (by simp [nameless]), turn_of_shape here shape⟩
  | some fields =>
      obtain rfl := eq_obj_of_fields? shape
      exact turn_of_fields reads here seen

end Turns

theorem each_walk (reads : Reads s read) : ∀ {items : List Value} {names : List String} {i : Nat},
    raw.drop i = items → Seen s raw i names →
      (walk s s.nameKey s.repetition read finish names i items).Each fun issue =>
        ∃ p, Blamed s read finish raw p issue := by
  intro items
  induction items with
  | nil => exact fun _ _ => Checked.each_pure _
  | cons v vs ih =>
      intro names i suffix seen issue told
      obtain ⟨here, rest⟩ := head_of_drop suffix
      obtain ⟨onward, known, turn⟩ := turn_of_walk finish vs reads here seen
      obtain ⟨said, blamed, issues⟩ := turn.issues
      rw [issues, List.mem_append] at told
      rcases told with now | later
      · exact ⟨i, blamed issue now⟩
      · exact ih rest known issue later

/-- What a walk keeps comes from a kept entry, and stands where the kept entries before it leave it. -/
theorem yields_of_walk (reads : Reads s read) : ∀ {items : List Value} {names : List String} {i : Nat},
    raw.drop i = items → Seen s raw i names → ∀ {j : Nat} {b : β},
      (walk s s.nameKey s.repetition read finish names i items).value[j]? = some b →
        ∃ p, Yields s read finish raw p (some b) ∧ keptBefore s raw p = keptBefore s raw i + j := by
  -- By induction on the entries that are left; the first of them is at place `i`.
  intro items
  induction items with
  | nil =>
      intro names i _ _ j b found
      cases found
  | cons v vs ih =>
      intro names i suffix seen j b found
      obtain ⟨here, rest⟩ := head_of_drop suffix
      obtain ⟨onward, known, turn⟩ := turn_of_walk finish vs reads here seen
      obtain ⟨head, yields, value⟩ := turn.value
      rw [value] at found
      cases yields with
      | nothing out =>
          obtain ⟨p, yields, place⟩ := ih rest known (j := j) found
          exact ⟨p, yields, by rw [place, keptBefore_of_out out]⟩
      | item entry item keeps =>
          cases j with
          | zero =>
              cases found
              exact ⟨i, .item entry item keeps, rfl⟩
          | succ j =>
              obtain ⟨p, yields, place⟩ := ih rest known (j := j) found
              refine ⟨p, yields, ?_⟩
              rw [place, keptBefore_of_kept keeps]
              omega

end Walks

end CrewFlow.Spec
