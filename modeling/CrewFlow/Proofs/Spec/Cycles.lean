import Mathlib
import CrewFlow.Proofs.Spec.Listening
/-!
# Cycles of listening methods

The path of the search leads along edges: each node listens to the one that was visited from it. So when the
search comes back to a node of its path, the path from this node on is a cycle. The search finds a cycle
exactly when there is one.
-/
set_option autoImplicit false

namespace CrewFlow.Spec

/-- An edge of the graph that is searched: a method listens to a declared method. -/
structure Edge (methods : List MethodSpec) (listener name : String) : Prop where
  listens : Listens methods listener name
  declared : name ∈ methods.map (·.name)

/-- A path that ends where it begins, and along which each name is related to the next one. Apart from its
ends no name is repeated. -/
structure Cycle (r : String → String → Prop) (path : List String) : Prop where
  long : 2 ≤ path.length
  closed : path.head? = path.getLast?
  simple : path.dropLast.Nodup
  steps : path.IsChain r

section Cycles
variable {r : String → String → Prop}

theorem Cycle.mono {s : String → String → Prop} {path : List String} (cycle : Cycle r path)
    (imp : ∀ a b, r a b → s a b) : Cycle s path :=
  ⟨cycle.long, cycle.closed, cycle.simple, cycle.steps.imp imp⟩

theorem Cycle.exists_transGen {path : List String} (cycle : Cycle r path) : ∃ name, Relation.TransGen r name name := by
  obtain ⟨long, closed, _, steps⟩ := cycle
  match path, long with
  | first :: second :: rest, _ =>
      obtain ⟨step, onward⟩ := List.isChain_cons_cons.mp steps
      refine ⟨first, .head' step ?_⟩
      have last : (second :: rest).getLast (List.cons_ne_nil _ _) = first := by
        rw [List.head?_cons, List.getLast?_cons_cons, List.getLast?_eq_some_getLast (List.cons_ne_nil _ _)] at closed
        exact (Option.some.inj closed).symm
      exact List.relationReflTransGen_of_exists_isChain_cons rest onward last

/-- A path without repetition, last node first, and an edge from its last node back to one of its nodes: from
this node on, the path is a cycle. -/
theorem cycle_of_path {path : List String} {node next : String} (simple : (node :: path).Nodup)
    (steps : (node :: path).IsChain fun later earlier => r earlier later) (back : r node next)
    (member : next ∈ node :: path) :
    Cycle r (((node :: path).takeWhile (· ≠ next) ++ [next]).reverse ++ [next]) := by
  obtain ⟨before, after, split, new⟩ := List.eq_append_cons_of_mem member
  have walked : (node :: path).takeWhile (· ≠ next) = before := by
    have apart : ∀ name ∈ before, decide (name ≠ next) = true := fun name earlier =>
      decide_eq_true fun same => new (same ▸ earlier)
    rw [split, List.takeWhile_append_of_pos apart, List.takeWhile_cons_of_neg (by simp), List.append_nil]
  -- The part of the path that lies on the cycle: its last node is `node`, its first one `next`.
  have front : before ++ [next] <+: node :: path := by
    rw [split]
    exact ⟨after, by rw [List.append_assoc, List.singleton_append]⟩
  have last : (before ++ [next]).head? = some node := by
    have whole := congrArg List.head? split
    cases before <;> exact whole.symm
  rw [walked]
  constructor
  case long => simp
  case closed =>
    rw [List.getLast?_concat, List.reverse_append, List.append_assoc, List.reverse_singleton,
      List.singleton_append, List.head?_cons]
  case simple =>
    rw [List.dropLast_concat]
    exact List.nodup_reverse.mpr (simple.sublist front.sublist)
  case steps =>
    have along : (before ++ [next]).IsChain fun later earlier => r earlier later := List.IsChain.prefix steps front
    refine List.isChain_append.mpr ⟨List.isChain_reverse.mpr along, .singleton next, ?_⟩
    intro a atEnd b atHead
    rw [List.getLast?_reverse, last] at atEnd
    cases atEnd
    cases atHead
    exact back

end Cycles

/-! ## The path of the search -/

section Search

theorem exists_error_of_foldlM {α β ε : Type} {visit : β → α → Except ε β} {xs : List α} {done : β} {e : ε}
    (search : xs.foldlM visit done = .error e) : ∃ x ∈ xs, ∃ done, visit done x = .error e := by
  induction xs generalizing done with
  | nil => cases search
  | cons x xs ih =>
      rw [List.foldlM_cons] at search
      cases first : visit done x with
      | error cycle =>
          rw [first] at search
          cases search
          exact ⟨x, List.mem_cons_self, done, first⟩
      | ok next =>
          rw [first] at search
          obtain ⟨y, member, failed⟩ := ih search
          exact ⟨y, List.mem_cons_of_mem x member, failed⟩

theorem cycle_of_visit {edges : List (String × List String)} {fuel : Nat} {path done : List String}
    {node : String} {cycle : List String} (visit : visitListens edges fuel path done node = .error cycle)
    (simple : (node :: path).Nodup)
    (steps : (node :: path).IsChain fun later earlier => later ∈ heard edges earlier) :
    Cycle (fun a b => b ∈ heard edges a) cycle := by
  induction fuel generalizing path done node with
  | zero => cases visit
  | succ fuel ih =>
      rw [visitListens] at visit
      simp only [bind, Except.bind] at visit
      split at visit
      · next failed search =>
          cases visit
          obtain ⟨next, hears, _, step⟩ := exists_error_of_foldlM search
          split at step
          · next met =>
              cases step
              exact cycle_of_path simple steps hears (List.contains_iff_mem.mp met)
          · next new =>
              split at step
              · cases step
              · have fresh : next ∉ node :: path := fun member => new (List.contains_iff_mem.mpr member)
                exact ih step (List.nodup_cons.mpr ⟨fresh, simple⟩)
                  (List.isChain_cons_cons.mpr ⟨hears, steps⟩)
      · cases visit

end Search

/-! ## Methods -/

section Methods
variable {methods : List MethodSpec}

/-- The search hears a method listening only where it listens. -/
theorem listens_of_mem_heard {listener name : String}
    (hears : name ∈ heard (listenEdges methods) listener) : Listens methods listener name := by
  cases found : (listenEdges methods).lookup listener with
  | none => simp [heard, found] at hears
  | some names =>
      obtain ⟨i, below, same⟩ := List.mem_mapIdx.mp (Json.Fields.mem_of_lookup found)
      simp only [heard, found, Option.getD_some] at hears
      obtain ⟨named, rfl⟩ := Prod.mk.inj same
      split at hears
      · cases hears
      · next heeds =>
          refine .edge (List.getElem?_eq_getElem below) named (fun start => heeds (.inl start)) ?_
            (List.mem_filter.mp hears).1
          intro first
          by_contra unstarted
          refine heeds (.inr ⟨?_, first⟩)
          simpa using unstarted

theorem mem_heard_iff_edge (distinct : (methods.map (·.name)).Nodup) {listener name : String} :
    name ∈ heard (listenEdges methods) listener ↔ Edge methods listener name :=
  ⟨fun hears => ⟨listens_of_mem_heard hears, mem_names_of_mem_heard hears⟩,
    fun edge => mem_heard distinct edge.listens edge.declared⟩

theorem cycle_of_listenCycle? {path : List String} (found : listenCycle? methods = some path) :
    Cycle (fun a b => b ∈ heard (listenEdges methods) a) path := by
  unfold listenCycle? at found
  simp only at found
  split at found
  · cases found
  · next search =>
      cases found
      obtain ⟨m, _, done, visit⟩ := exists_error_of_foldlM search
      split at visit
      · cases visit
      · exact cycle_of_visit visit (List.nodup_singleton m.name) (.singleton m.name)

/-- The search for a cycle is exact: it finds none exactly when there is none, and what it finds is one. -/
theorem listen_cycle_search_exact (distinct : (methods.map (·.name)).Nodup) :
    (listenCycle? methods = none ↔ ∀ name, ¬Relation.TransGen (Edge methods) name name) ∧
      ∀ path, listenCycle? methods = some path → Cycle (Edge methods) path := by
  have found : ∀ path, listenCycle? methods = some path → Cycle (Edge methods) path := fun path found =>
    (cycle_of_listenCycle? found).mono fun _ _ => (mem_heard_iff_edge distinct).mp
  refine ⟨⟨fun passed name loop => ?_, fun free => ?_⟩, found⟩
  · exact acyclic_of_listenCycle? distinct passed name
        (Relation.TransGen.mono (fun _ _ => Edge.listens) name name loop)
  · cases outcome : listenCycle? methods with
    | none => rfl
    | some path =>
        obtain ⟨name, loop⟩ := (found path outcome).exists_transGen
        exact absurd loop (free name)

end Methods

/-- A draft is checked again whenever it has been revised. The check also waits for itself and for a method
that is not declared. -/
def revising : List MethodSpec :=
  let method (name : String) (kind : MethodKind) (after : List String) : MethodSpec :=
    { name, kind, crew := none, listenTo := after, join := .all, condition := none, routes := .empty,
      output := none }
  [method "draft" .start ["revise"], method "check" .listen ["draft", "ghost", "revise", "check"],
   method "revise" .listen ["check", "check"]]

theorem revising_has_cycle :
    (listenCycle? revising = none ↔ ∀ name, ¬Relation.TransGen (Edge revising) name name) ∧
      listenCycle? revising = some ["check", "revise", "check"] ∧
      Cycle (Edge revising) ["check", "revise", "check"] := by
  have found : listenCycle? revising = some ["check", "revise", "check"] := by decide +kernel
  have distinct : (revising.map (·.name)).Nodup := by decide
  obtain ⟨none_iff, cycles⟩ := listen_cycle_search_exact distinct
  exact ⟨none_iff, found, cycles _ found⟩

end CrewFlow.Spec
