import CrewFlow.Spec.Document
/-!
# Cycles among flow methods

A method listens to the methods it names. A depth-first search along these edges finds a cycle if
there is one. Start methods listen to nothing; where none is declared, the first method starts.
-/
namespace CrewFlow.Spec

/-- The names each method listens to, start methods and unknown names left out. -/
def listenEdges (methods : List MethodSpec) : List (String × List String) :=
  let hasStart := methods.any fun m => m.kind == .start
  let names := methods.map (·.name)
  methods.mapIdx fun i m =>
    (m.name,
      if m.kind = .start ∨ (!hasStart ∧ i = 0) then []
      else m.listenTo.filter fun p => names.contains p)

def heard (edges : List (String × List String)) (name : String) : List String :=
  (edges.lookup name).getD []

/-- Visits `node` from `path`, which leads to it from the first node visited, last node first. The
result is a cycle, or the nodes `done` that lie on no cycle. -/
def visitListens (edges : List (String × List String)) :
    Nat → List String → List String → String → Except (List String) (List String)
  | 0, _, done, _ => .ok done
  | fuel + 1, path, done, node => do
    let path := node :: path
    let done ← (heard edges node).foldlM (fun done next =>
      if path.contains next then
        -- The part of the path since `next`, turned to the order of listening.
        .error ((path.takeWhile (· ≠ next) ++ [next]).reverse ++ [next])
      else if done.contains next then .ok done
      else visitListens edges fuel path done next) done
    return node :: done

/-- The first cycle found: a path that ends where it starts, each name listening to the next. -/
def listenCycle? (methods : List MethodSpec) : Option (List String) :=
  let edges := listenEdges methods
  let search := methods.foldlM (fun done m =>
    if done.contains m.name then .ok done
    -- No name is on a path twice, so the search does not run out of fuel.
    else visitListens edges (methods.length + 1) [] done m.name) ([] : List String)
  match search with
  | .ok _ => none
  | .error cycle => some cycle

end CrewFlow.Spec
