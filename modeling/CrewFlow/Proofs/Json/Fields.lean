import Mathlib
import CrewFlow.Json.Basic
/-!
# Lookups among fields

What the fields of an object hold after they have been written or taken away, and that their keys stay
different.
-/
set_option autoImplicit false

namespace CrewFlow.Json.Fields

section Lookups
variable {α : Type} {entries : List (String × α)} {key : String} {value : α}

theorem lookup_cons_eq (entry : String × α) (rest : List (String × α)) (key : String) :
    (entry :: rest).lookup key = if key = entry.1 then some entry.2 else rest.lookup key := by
  obtain ⟨name, value⟩ := entry
  by_cases same : key = name
  · simp [same]
  · have apart : (key == name) = false := by simpa using same
    rw [List.lookup_cons, apart, if_neg same]

theorem mem_of_lookup (found : entries.lookup key = some value) : (key, value) ∈ entries := by
  obtain ⟨before, after, rfl, _⟩ := List.lookup_eq_some_iff.mp found
  simp

theorem lookup_of_mem (distinct : (entries.map (·.1)).Nodup) (member : (key, value) ∈ entries) :
    entries.lookup key = some value := by
  obtain ⟨before, after, rfl⟩ := List.append_of_mem member
  refine List.lookup_eq_some_iff.mpr ⟨before, after, rfl, ?_⟩
  intro e earlier
  have apart : key ≠ e.1 := by
    rw [List.map_append, List.map_cons] at distinct
    have late := List.disjoint_of_nodup_append distinct (List.mem_map_of_mem earlier)
    exact fun same => late (same ▸ List.mem_cons_self)
  simpa using apart

theorem lookup_filter (other : String) :
    (entries.filter fun e => e.1 ≠ key).lookup other =
      if other = key then none else entries.lookup other := by
  induction entries with
  | nil => simp
  | cons e rest ih =>
      by_cases dropped : e.1 = key
      · rw [List.filter_cons_of_neg (by simpa using dropped), ih, lookup_cons_eq, dropped]
        by_cases same : other = key <;> simp [same]
      · rw [List.filter_cons_of_pos (by simpa using dropped), lookup_cons_eq, lookup_cons_eq, ih]
        by_cases here : other = e.1
        · rw [if_pos here, if_neg (fun same => dropped (here.symm.trans same)), if_pos here]
        · rw [if_neg here, if_neg here]

end Lookups

section Writing
variable {fields : Fields} {key other : String} {v : Value}

theorem get?_insert (fields : Fields) (key other : String) (v : Value) :
    (fields.insert key v).get? other = if other = key then some v else fields.get? other := by
  simp only [get?]
  induction fields with
  | nil => rw [insert, lookup_cons_eq]
  | cons f rest ih =>
      by_cases here : f.1 = key
      · rw [insert, if_pos here, lookup_cons_eq, lookup_cons_eq, here]
        by_cases same : other = key <;> simp [same]
      · rw [insert, if_neg here, lookup_cons_eq, lookup_cons_eq, ih]
        by_cases first : other = f.1
        · rw [if_pos first, if_neg (fun same => here (first.symm.trans same)), if_pos first]
        · rw [if_neg first, if_neg first]

theorem keys_insert (fields : Fields) (key : String) (v : Value) :
    (fields.insert key v).map (·.1) =
      if key ∈ fields.map (·.1) then fields.map (·.1) else fields.map (·.1) ++ [key] := by
  induction fields with
  | nil => rfl
  | cons f rest ih =>
      by_cases here : f.1 = key
      · simp [insert, here]
      · have apart : key ≠ f.1 := fun same => here same.symm
        by_cases later : key ∈ rest.map (·.1)
        · rw [if_pos later] at ih
          simp [insert, here, ih, later]
        · rw [if_neg later] at ih
          simp [insert, here, ih, later, apart]

theorem nodup_insert (distinct : (fields.map (·.1)).Nodup) :
    ((fields.insert key v).map (·.1)).Nodup := by
  rw [keys_insert]
  split
  · exact distinct
  · next fresh =>
      exact distinct.append (List.nodup_singleton key) (by simpa using fresh)

theorem mem_insert {entry : String × Value} (member : entry ∈ fields.insert key v) :
    entry = (key, v) ∨ entry ∈ fields := by
  induction fields with
  | nil => exact Or.inl (List.mem_singleton.mp member)
  | cons f rest ih =>
      rw [insert] at member
      split at member
      · rcases List.mem_cons.mp member with written | later
        · exact Or.inl written
        · exact Or.inr (List.mem_cons_of_mem _ later)
      · rcases List.mem_cons.mp member with first | later
        · exact Or.inr (first ▸ List.mem_cons_self)
        · exact (ih later).imp_right (List.mem_cons_of_mem _)

theorem get?_ofList (entries : List (String × Value)) (key : String) :
    (ofList entries).get? key = entries.reverse.lookup key := by
  have written : ∀ fields : Fields, (entries.foldl (fun fs e => fs.insert e.1 e.2) fields).get? key =
      (entries.reverse.lookup key).or (fields.get? key) := by
    induction entries with
    | nil => intro fields; rfl
    | cons e rest ih =>
        intro fields
        rw [List.foldl_cons, ih, get?_insert, List.reverse_cons, List.lookup_append,
          lookup_cons_eq]
        by_cases same : key = e.1 <;> cases rest.reverse.lookup key <;> simp [same]
  rw [ofList, written]
  cases entries.reverse.lookup key <;> rfl

theorem insert_of_fresh (fresh : key ∉ fields.map (·.1)) :
    fields.insert key v = fields ++ [(key, v)] := by
  induction fields with
  | nil => rfl
  | cons f rest ih =>
      rw [List.map_cons, List.mem_cons, not_or] at fresh
      rw [insert, if_neg (Ne.symm fresh.1), ih fresh.2, List.cons_append]

theorem ofList_eq_self {entries : List (String × Value)} (distinct : (entries.map (·.1)).Nodup) :
    ofList entries = entries := by
  have written : ∀ fields : Fields, ((fields ++ entries).map (·.1)).Nodup →
      entries.foldl (fun fs e => fs.insert e.1 e.2) fields = fields ++ entries := by
    clear distinct
    induction entries with
    | nil => intro fields _; simp
    | cons e rest ih =>
        intro fields apart
        have fresh : e.1 ∉ fields.map (·.1) := by
          rw [List.map_append, List.map_cons] at apart
          exact fun member => List.disjoint_of_nodup_append apart member List.mem_cons_self
        have grown : fields ++ e :: rest = (fields ++ [e]) ++ rest := by simp
        rw [List.foldl_cons, insert_of_fresh fresh, grown]
        exact ih _ (grown ▸ apart)
  exact written [] distinct

theorem keys_ofList {entries : List (String × Value)} (distinct : (entries.map (·.1)).Nodup) :
    (ofList entries).map (·.1) = entries.map (·.1) := by
  rw [ofList_eq_self distinct]

theorem get?_erase (fields : Fields) (key other : String) :
    (fields.erase key).get? other = if other = key then none else fields.get? other :=
  lookup_filter other

end Writing

end CrewFlow.Json.Fields
