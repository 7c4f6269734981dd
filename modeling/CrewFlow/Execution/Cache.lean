import CrewFlow.Execution.Record
/-!
# Status cache

The fast side of runs: at most one record for each id. It may lack a record that the store has.
-/
namespace CrewFlow.Execution

structure Cache where
  entries : List Record
  deriving Repr

namespace Cache

def empty : Cache := ⟨[]⟩

def get? (c : Cache) (id : String) : Option Record := c.entries.find? fun r => r.id == id

def remove (c : Cache) (id : String) : Cache := ⟨c.entries.filter fun r => r.id ≠ id⟩

def put (c : Cache) (r : Record) : Cache := ⟨r :: (c.remove r.id).entries⟩

def putIfAbsent (c : Cache) (r : Record) : Cache := if (c.get? r.id).isSome then c else c.put r

def size (c : Cache) : Nat := c.entries.length

end Cache

end CrewFlow.Execution
