import CrewFlow.Text.Letter
/-!
# Embedders

An embedder turns texts into vectors. The one at hand everywhere counts the words of a text, each at
the place that a hash of the word gives, and scales the counts to length one.
-/
namespace CrewFlow.Memory

abbrev Vector32 := List Float32

/-- A way to turn texts into vectors. -/
structure Embedder where
  name : String
  embed : List String → Except String (List Vector32)

def dimensions : Nat := 256

def hashByte (hash : UInt64) (b : UInt8) : UInt64 := (hash ^^^ b.toUInt64) * 0x100000001b3

def hashWord (word : List Char) : UInt64 :=
  (String.ofList (Text.lower word)).toUTF8.toList.foldl hashByte 0xcbf29ce484222325

def place (word : List Char) : Nat := (hashWord word).toNat % dimensions

/-- The sum of numbers, from the first to the last. -/
def total (v : Vector32) : Float32 := v.foldl (· + ·) 0

def norm (v : Vector32) : Float32 := (total (v.map fun x => x * x)).sqrt

def counts (text : String) : Vector32 :=
  let places := (Text.letterRuns text).map place
  (List.range dimensions).map fun i => places.foldl (fun n p => if p = i then n + 1 else n) 0

/-- The vector of a text: its counts, scaled to length one unless it has no words. -/
def hashed (text : String) : Vector32 :=
  let v := counts text
  let n := norm v
  if n > 0 then v.map (· / n) else v

def Embedder.hashing : Embedder := ⟨"hashing", fun texts => .ok (texts.map hashed)⟩

end CrewFlow.Memory
