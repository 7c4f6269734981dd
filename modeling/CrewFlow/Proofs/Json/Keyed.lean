import Mathlib
import CrewFlow.Json.Parser
import CrewFlow.Proofs.Json.Fields
import CrewFlow.Yaml.ToJson
/-!
# Objects without repeated keys

No object in a value that is read from a text has a key twice, be it read from JSON or from YAML: both
readers write the fields of an object one after the other.
-/
set_option autoImplicit false

namespace CrewFlow.Json

/-- A value in which no object has a key twice. -/
inductive Value.Keyed : Value → Prop where
  | null : Keyed .null
  | bool (b : Bool) : Keyed (.bool b)
  | num (n : Number) : Keyed (.num n)
  | str (s : String) : Keyed (.str s)
  | arr {items : List Value} (each : ∀ v ∈ items, Keyed v) : Keyed (.arr items)
  | obj {fields : Fields} (distinct : (fields.map (·.1)).Nodup) (each : ∀ f ∈ fields, Keyed f.2) :
      Keyed (.obj fields)

namespace Fields

/-- Fields with different keys, whose values have no object with a key twice. -/
structure Keyed (fields : Fields) : Prop where
  distinct : (fields.map (·.1)).Nodup
  each : ∀ f ∈ fields, f.2.Keyed

theorem keyed_nil : Keyed [] := ⟨List.nodup_nil, by simp⟩

theorem Keyed.insert {fields : Fields} (keyed : fields.Keyed) (key : String) {v : Value}
    (value : v.Keyed) : (fields.insert key v).Keyed := by
  refine ⟨nodup_insert keyed.distinct, ?_⟩
  intro f member
  rcases mem_insert member with rfl | old
  · exact value
  · exact keyed.each f old

theorem Keyed.of_get? {fields : Fields} (keyed : fields.Keyed) {key : String} {v : Value}
    (found : fields.get? key = some v) : v.Keyed := keyed.each _ (mem_of_lookup found)

end Fields

theorem Value.Keyed.fields {fields : Fields} (keyed : (Value.obj fields).Keyed) : fields.Keyed := by
  cases keyed with
  | obj distinct each => exact ⟨distinct, each⟩

/-! ## JSON -/

theorem keyed_of_literal? {word cs rest : List Char} {v w : Value} (plain : v.Keyed)
    (read : literal? word v cs = some (w, rest)) : w.Keyed := by
  unfold literal? at read
  split at read
  · cases read
    exact plain
  · cases read

/-- What the three readers yield with so much fuel has no object with a key twice. -/
structure Apart (fuel : Nat) : Prop where
  value : ∀ {depth : Nat} {cs rest : List Char} {v : Value},
    value? fuel depth cs = some (v, rest) → v.Keyed
  items : ∀ {depth : Nat} {cs rest : List Char} {vs : List Value},
    items? fuel depth cs = some (vs, rest) → ∀ v ∈ vs, v.Keyed
  fields : ∀ {depth : Nat} {seen fields : Fields} {cs rest : List Char}, seen.Keyed →
    fields? fuel depth seen cs = some (fields, rest) → fields.Keyed

section Readers
variable {fuel depth : Nat} {cs rest : List Char}

theorem Apart.value_succ (apart : Apart fuel) {v : Value}
    (read : value? (fuel + 1) depth cs = some (v, rest)) : v.Keyed := by
  rw [value?] at read
  split at read
  · cases read
  · next c behind opening =>
      split_ifs at read
      · exact keyed_of_literal? .null read
      · exact keyed_of_literal? (.bool true) read
      · exact keyed_of_literal? (.bool false) read
      · obtain ⟨_, _, same⟩ := Option.map_eq_some_iff.mp read
        cases same
        exact .num _
      · obtain ⟨_, _, same⟩ := Option.map_eq_some_iff.mp read
        cases same
        exact .num _
      · obtain ⟨_, _, same⟩ := Option.map_eq_some_iff.mp read
        cases same
        exact .str _
      · cases depth with
        | zero => cases read
        | succ depth =>
            simp only at read
            split at read
            · cases read
              exact .arr (by simp)
            · obtain ⟨_, inner, same⟩ := Option.map_eq_some_iff.mp read
              cases same
              exact .arr (apart.items inner)
      · cases depth with
        | zero => cases read
        | succ depth =>
            simp only at read
            split at read
            · cases read
              exact .obj List.nodup_nil (by simp)
            · obtain ⟨_, inner, same⟩ := Option.map_eq_some_iff.mp read
              cases same
              have keyed := apart.fields Fields.keyed_nil inner
              exact .obj keyed.distinct keyed.each

theorem Apart.items_succ (apart : Apart fuel) {vs : List Value}
    (read : items? (fuel + 1) depth cs = some (vs, rest)) : ∀ v ∈ vs, v.Keyed := by
  rw [items?] at read
  obtain ⟨⟨v, behind⟩, first, read⟩ := Option.bind_eq_some_iff.mp read
  have keyed := apart.value first
  simp only at read
  split at read
  · obtain ⟨⟨others, last⟩, later, same⟩ := Option.bind_eq_some_iff.mp read
    cases same
    simpa [keyed] using apart.items later
  · cases read
    simpa using keyed
  · cases read

theorem Apart.fields_succ (apart : Apart fuel) {seen fields : Fields} (keyed : seen.Keyed)
    (read : fields? (fuel + 1) depth seen cs = some (fields, rest)) : fields.Keyed := by
  rw [fields?] at read
  split at read
  · obtain ⟨⟨key, behind⟩, _, read⟩ := Option.bind_eq_some_iff.mp read
    simp only at read
    split at read
    · obtain ⟨⟨v, after⟩, value, read⟩ := Option.bind_eq_some_iff.mp read
      have further := keyed.insert key (apart.value value)
      simp only at read
      split at read
      · exact apart.fields further read
      · cases read
        exact further
      · cases read
    · cases read
  · cases read

end Readers

theorem apart_of_readers (fuel : Nat) : Apart fuel := by
  induction fuel with
  | zero => constructor <;> simp [value?, items?, fields?]
  | succ fuel ih => exact ⟨ih.value_succ, ih.items_succ, ih.fields_succ⟩

theorem keyed_of_parse? {s : String} {v : Value} (read : parse? s = some v) : v.Keyed := by
  simp only [parse?] at read
  split at read
  · next first rest found =>
      split at read
      · cases read
        exact (apart_of_readers _).value found
      · cases read
  · cases read

end CrewFlow.Json

namespace CrewFlow.Yaml.Node

open Json (Fields Value)

/-! ## YAML -/

mutual

theorem keyed_of_toJson : ∀ {n : Node} {v : Value}, n.toJson = .ok v → v.Keyed
  | .null, _, read => by
      cases read
      exact .null
  | .bool b, _, read => by
      cases read
      exact .bool b
  | .num (.int n), _, read => by
      cases read
      exact .num _
  | .num (.float x), _, read => by
      rw [toJson] at read
      split at read
      · cases read
        exact .num _
      · cases read
  | .str s, _, read => by
      cases read
      exact .str s
  | .seq items, _, read => by
      rw [toJson] at read
      cases inner : toJsonItems items with
      | error e => simp [inner, bind, Except.bind] at read
      | ok vs =>
          simp only [inner, bind, Except.bind, pure, Except.pure] at read
          cases read
          exact .arr (keyed_of_toJsonItems inner)
  | .map entries, _, read => by
      rw [toJson] at read
      cases inner : toJsonFields [] entries with
      | error e => simp [inner, bind, Except.bind] at read
      | ok fields =>
          simp only [inner, bind, Except.bind, pure, Except.pure] at read
          cases read
          have keyed := keyed_of_toJsonFields Fields.keyed_nil inner
          exact .obj keyed.distinct keyed.each
  | .tagged _ n, _, read => by
      rw [toJson] at read
      exact keyed_of_toJson read

theorem keyed_of_toJsonItems :
    ∀ {items : List Node} {vs : List Value}, toJsonItems items = .ok vs → ∀ v ∈ vs, v.Keyed
  | [], _, read => by
      cases read
      simp
  | n :: ns, _, read => by
      rw [toJsonItems] at read
      cases first : toJson n with
      | error e => simp [first, bind, Except.bind] at read
      | ok v =>
          cases later : toJsonItems ns with
          | error e => simp [first, later, bind, Except.bind] at read
          | ok vs =>
              simp only [first, later, bind, Except.bind, pure, Except.pure] at read
              cases read
              simpa [keyed_of_toJson first] using keyed_of_toJsonItems later

theorem keyed_of_toJsonFields : ∀ {entries : List (Node × Node)} {seen fields : Fields}, seen.Keyed →
    toJsonFields seen entries = .ok fields → fields.Keyed
  | [], _, _, keyed, read => by
      cases read
      exact keyed
  | (k, n) :: rest, _, _, keyed, read => by
      rw [toJsonFields] at read
      cases name : keyText k with
      | error e => simp [name, bind, Except.bind] at read
      | ok key =>
          cases first : toJson n with
          | error e => simp [name, first, bind, Except.bind] at read
          | ok v =>
              simp only [name, first, bind, Except.bind] at read
              exact keyed_of_toJsonFields (keyed.insert key (keyed_of_toJson first)) read

end

end CrewFlow.Yaml.Node
