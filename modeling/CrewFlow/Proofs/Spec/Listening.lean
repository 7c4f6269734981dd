import Mathlib
import CrewFlow.Proofs.Json.Fields
import CrewFlow.Spec.ListenCycle
/-!
# Listening without cycles

Methods that listen to each other are searched depth first. Once the search has gone through a node, the
names that the node listens to stand behind it in the list of what is done. So a search that ends without
a cycle has put all methods in an order in which each listens only to those behind it, and there is none.
-/
set_option autoImplicit false

namespace CrewFlow.Spec

/-- A method that listens to a name. Start methods listen to nothing; where none is declared, neither does
the first method. -/
inductive Listens (methods : List MethodSpec) (listener name : String) : Prop where
  | edge {i : Nat} {m : MethodSpec} (declared : methods[i]? = some m) (named : m.name = listener)
      (later : m.kind ≠ .start) (promoted : i = 0 → ∃ s ∈ methods, s.kind = .start)
      (names : name ∈ m.listenTo)

/-- No method hears from itself, directly or through others. -/
def Acyclic (methods : List MethodSpec) : Prop :=
  ∀ name, ¬Relation.TransGen (Listens methods) name name

theorem Listens.mem_names {methods : List MethodSpec} {listener name : String}
    (listens : Listens methods listener name) : listener ∈ methods.map (·.name) := by
  obtain ⟨declared, named, _, _, _⟩ := listens
  exact List.mem_map.mpr ⟨_, List.mem_of_getElem? declared, named⟩

/-! ## Edges -/

section Edges
variable {methods : List MethodSpec}

theorem keys_listenEdges : (listenEdges methods).map (·.1) = methods.map (·.name) := by
  apply List.ext_getElem?
  intro i
  rw [listenEdges, List.getElem?_map, List.getElem?_mapIdx, List.getElem?_map, Option.map_map]
  rfl

theorem mem_names_of_mem_heard {listener name : String}
    (hears : name ∈ heard (listenEdges methods) listener) : name ∈ methods.map (·.name) := by
  cases found : (listenEdges methods).lookup listener with
  | none => simp [heard, found] at hears
  | some names =>
      have edge := Json.Fields.mem_of_lookup found
      obtain ⟨i, below, same⟩ := List.mem_mapIdx.mp edge
      simp only [heard, found, Option.getD_some] at hears
      obtain ⟨_, rfl⟩ := Prod.mk.inj same
      split at hears
      · cases hears
      · simpa using (List.mem_filter.mp hears).2

theorem mem_heard (distinct : (methods.map (·.name)).Nodup) {listener name : String}
    (listens : Listens methods listener name) (declared : name ∈ methods.map (·.name)) :
    name ∈ heard (listenEdges methods) listener := by
  obtain @⟨i, m, position, rfl, later, promoted, names⟩ := listens
  obtain ⟨below, rfl⟩ := List.getElem?_eq_some_iff.mp position
  have silent : ¬(methods[i].kind = .start ∨
      (!methods.any fun m => m.kind == .start) = true ∧ i = 0) := by
    rintro (start | ⟨unstarted, first⟩)
    · exact later start
    · obtain ⟨s, member, start⟩ := promoted first
      simp only [Bool.not_eq_true', List.any_eq_false] at unstarted
      exact unstarted s member (by simpa using start)
  have edge : (methods[i].name, methods[i].listenTo.filter (methods.map (·.name)).contains) ∈
      listenEdges methods := by
    refine List.mem_mapIdx.mpr ⟨i, below, ?_⟩
    rw [if_neg silent]
  rw [heard, Json.Fields.lookup_of_mem (keys_listenEdges ▸ distinct) edge, Option.getD_some]
  exact List.mem_filter.mpr ⟨names, by simpa using declared⟩

end Edges

/-! ## The search -/

section Search
variable {edges : List (String × List String)}

def Ordered (edges : List (String × List String)) : List String → Prop
  | [] => True
  | name :: rest => (∀ p ∈ heard edges name, p ∈ rest) ∧ Ordered edges rest

theorem Ordered.acc {done : List String} (ordered : Ordered edges done) :
    ∀ name ∈ done, Acc (fun p n => p ∈ heard edges n) name := by
  induction done with
  | nil => simp
  | cons first rest ih =>
      have behind := ih ordered.2
      intro name member
      rcases List.mem_cons.mp member with rfl | later
      · exact .intro name fun p hears => behind p (ordered.1 p hears)
      · exact behind name later

theorem ordered_of_foldlM {α : Type} (name : α → String)
    {visit : List String → α → Except (List String) (List String)} {xs : List α}
    (visits : ∀ x ∈ xs, ∀ {done after : List String}, visit done x = .ok after →
      Ordered edges done → Ordered edges after ∧ name x ∈ after ∧ done ⊆ after)
    {done after : List String} (search : xs.foldlM visit done = .ok after)
    (ordered : Ordered edges done) :
    Ordered edges after ∧ (∀ x ∈ xs, name x ∈ after) ∧ done ⊆ after := by
  induction xs generalizing done with
  | nil =>
      cases search
      exact ⟨ordered, by simp, fun _ member => member⟩
  | cons x xs ih =>
      rw [List.foldlM_cons] at search
      cases first : visit done x with
      | error cycle => simp [first, bind, Except.bind] at search
      | ok next =>
          rw [first] at search
          obtain ⟨nextOrdered, visited, kept⟩ := visits x List.mem_cons_self first ordered
          obtain ⟨last, others, still⟩ :=
            ih (fun y member => visits y (List.mem_cons_of_mem x member)) search nextOrdered
          refine ⟨last, ?_, fun _ member => still (kept member)⟩
          intro y member
          rcases List.mem_cons.mp member with rfl | later
          · exact still visited
          · exact others y later

/-- A visit that finds no cycle puts its node in front of everything that the node listens to. The path
never repeats a name, so there is fuel for every path. -/
theorem ordered_of_visit {names : List String}
    (declared : ∀ listener, ∀ p ∈ heard edges listener, p ∈ names) :
    ∀ {fuel : Nat} {path done after : List String} {node : String},
      visitListens edges fuel path done node = .ok after → node ∈ names → node ∉ path →
      path.Nodup → path ⊆ names → names.length < fuel + path.length → Ordered edges done →
      Ordered edges after ∧ node ∈ after ∧ done ⊆ after := by
  intro fuel
  induction fuel with
  | zero =>
      intro path done after node _ _ _ simple inside enough _
      -- A path as long as this would have more names than there are.
      have few := (List.subperm_of_subset simple inside).length_le
      omega
  | succ fuel ih =>
      intro path done after node visit member fresh simple inside enough ordered
      rw [visitListens] at visit
      simp only [bind, Except.bind] at visit
      split at visit
      · cases visit
      · next found search =>
          cases visit
          have longer : (node :: path).Nodup := List.nodup_cons.mpr ⟨fresh, simple⟩
          have within : node :: path ⊆ names := List.cons_subset.mpr ⟨member, inside⟩
          have further : names.length < fuel + (node :: path).length := by
            rw [List.length_cons]
            omega
          obtain ⟨sorted, behind, kept⟩ := ordered_of_foldlM id (fun next hears {done after} step sorted => by
            split at step
            · cases step
            · next apart =>
                split at step
                · next already =>
                    cases step
                    exact ⟨sorted, by simpa using already, fun _ member => member⟩
                · exact ih step (declared node next hears) (by simpa using apart) longer within further
                    sorted) search ordered
          refine ⟨⟨behind, sorted⟩, List.mem_cons_self, ?_⟩
          exact fun _ member => List.mem_cons_of_mem _ (kept member)

end Search

/-! ## Methods -/

theorem not_transGen_of_acc {α : Type} {r : α → α → Prop} {a : α} (acc : Acc r a) :
    ¬Relation.TransGen r a a := by
  intro loop
  have closed := acc.transGen
  clear acc
  induction closed with
  | intro b _ ih => exact ih b loop loop

/-- Where the search finds no cycle, every chain of methods that listen to each other comes to an end. -/
theorem acc_of_listenCycle? {methods : List MethodSpec} (passed : listenCycle? methods = none) :
    ∀ name ∈ methods.map (·.name), Acc (fun p n => p ∈ heard (listenEdges methods) n) name := by
  unfold listenCycle? at passed
  simp only at passed
  split at passed
  · next done search =>
      have nothing : Ordered (listenEdges methods) [] := trivial
      obtain ⟨ordered, visited, _⟩ := ordered_of_foldlM MethodSpec.name
        (fun m member {done after} step ordered => by
          split at step
          · next already =>
              cases step
              exact ⟨ordered, by simpa using already, fun _ member => member⟩
          · exact ordered_of_visit (fun _ _ => mem_names_of_mem_heard) step
              (List.mem_map_of_mem member) List.not_mem_nil List.nodup_nil (List.nil_subset _)
              (by simp) ordered) search nothing
      intro name member
      obtain ⟨m, declared, rfl⟩ := List.mem_map.mp member
      exact ordered.acc m.name (visited m declared)
  · cases passed

/-- Where the search finds no cycle, there is none. -/
theorem acyclic_of_listenCycle? {methods : List MethodSpec}
    (distinct : (methods.map (·.name)).Nodup) (passed : listenCycle? methods = none) :
    Acyclic methods := by
  intro name loop
  -- On a cycle everybody listens, so everybody is declared.
  have declared : ∀ {a b : String}, Relation.TransGen (Listens methods) a b →
      b ∈ methods.map (·.name) →
      Relation.TransGen (fun n p => p ∈ heard (listenEdges methods) n) a b := by
    intro a b chain
    induction chain with
    | single listens => exact fun last => .single (mem_heard distinct listens last)
    | tail chain listens ih =>
        exact fun last => .tail (ih listens.mem_names) (mem_heard distinct listens last)
  obtain ⟨_, listens, _⟩ := Relation.TransGen.head'_iff.mp loop
  have known := listens.mem_names
  have backwards := Relation.transGen_swap.mp (declared loop known)
  exact not_transGen_of_acc (acc_of_listenCycle? passed name known) backwards

end CrewFlow.Spec
