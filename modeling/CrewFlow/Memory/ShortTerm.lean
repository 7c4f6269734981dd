import CrewFlow.Memory.Embedder
/-!
# Short-term memory

What the tasks of one run yielded, each with its source and its vector. A query recalls the texts
whose vectors point most nearly the same way.
-/
namespace CrewFlow.Memory

structure Entry where
  source : String
  text : String
  vector : Vector32

/-- Remembered texts in the order in which they were saved. -/
structure ShortTerm where
  embedder : Embedder
  entries : List Entry

/-- The cosine of the angle between two vectors; zero when it has none. -/
def cosine (a b : Vector32) : Float32 :=
  if a.length ≠ b.length then 0
  else
    let na := norm a
    let nb := norm b
    if na == 0 || nb == 0 then 0 else total (a.zipWith (· * ·) b) / (na * nb)

namespace ShortTerm

def empty (embedder : Embedder) : ShortTerm := ⟨embedder, []⟩

/-- The vector of one text; the empty vector when the embedder gives none. -/
def vectorOf (m : ShortTerm) (text : String) : Except String Vector32 := do
  return (← m.embedder.embed [text]).getLast?.getD []

def save (m : ShortTerm) (source text : String) : Except String ShortTerm := do
  return { m with entries := m.entries ++ [⟨source, text, ← m.vectorOf text⟩] }

/-- The entries that are similar to a vector at all, the most similar first. -/
def ranked (m : ShortTerm) (query : Vector32) : List (Float32 × Entry) :=
  let scored := m.entries.map fun e => (cosine query e.vector, e)
  -- By `≥`, so that entries of one similarity stay in the order of saving.
  (scored.filter fun s => s.1 > 0).mergeSort fun a b => !(a.1 < b.1)

def search (m : ShortTerm) (query : String) (limit : Nat) :
    Except String (List (String × String)) :=
  if m.entries.isEmpty || limit == 0 then .ok []
  else do
    let vector ← m.vectorOf query
    return ((m.ranked vector).take limit).map fun s => (s.2.source, s.2.text)

end ShortTerm

end CrewFlow.Memory
