import CrewFlow.Yaml.Event
import CrewFlow.Yaml.Plain
/-!
# Nodes of a YAML document

The tree of a document: its events with aliases replaced by what they stand for. A key must not
occur twice in a mapping, collections nest at most 128 deep, and the aliases that are followed are at
most a hundred times as many as the events.
-/
namespace CrewFlow.Yaml

/-- A node. The keys of a mapping are nodes too. -/
inductive Node where
  | null
  | bool (b : Bool)
  | num (n : Json.Number)
  | str (s : String)
  | seq (items : List Node)
  | map (entries : List (Node × Node))
  | tagged (tag : String) (node : Node)
  deriving Inhabited

/-- Equality of numbers: doubles by value, all NaNs alike. -/
def sameNumber : Json.Number → Json.Number → Bool
  | .int m, .int n => m == n
  | .float x, .float y => x == y || (x.isNaN && y.isNaN)
  | _, _ => false

def unmarked (name : String) : List Char :=
  match name.toList with
  | '!' :: c :: cs => c :: cs
  | cs => cs

namespace Node

mutual

/-- Equality of nodes; the order of a mapping's entries does not matter. -/
def same : Node → Node → Bool
  | .null, .null => true
  | .bool a, .bool b => a == b
  | .num a, .num b => sameNumber a b
  | .str a, .str b => a == b
  | .seq a, .seq b => sameItems a b
  | .map a, .map b => a.length == b.length && within a b
  | .tagged s a, .tagged t b => unmarked s == unmarked t && same a b
  | _, _ => false

def sameItems : List Node → List Node → Bool
  | [], [] => true
  | a :: as, b :: bs => same a b && sameItems as bs
  | _, _ => false

def within : List (Node × Node) → List (Node × Node) → Bool
  | [], _ => true
  | (k, v) :: as, bs => (bs.any fun e => same k e.1 && same v e.2) && within as bs

end

def ofPlain : Plain → Node
  | .null => .null
  | .bool b => .bool b
  | .num n => .num n
  | .str s => .str s

/-- The name of a tag of the application: the text behind its exclamation mark, or that mark when
nothing follows it. Octets that are no text make no name. -/
def ownTag? (tag : Option Address) : Option String :=
  match tag with
  | some [0x21] => some "!"
  | some (0x21 :: name) => String.fromUTF8? ⟨name.toArray⟩
  | _ => none

/-- The node of a scalar; `known` says that its tag has been dealt with. -/
def ofScalar? (known : Bool) (tag : Option Address) (text : List Char) (style : Style) :
    Option Node :=
  match known, tag with
  | false, some tag => (Plain.readTagged? tag text style).map ofPlain
  | _, _ => (Plain.readStyled? text style).map ofPlain

end Node

/-- A document: its events, and the place of the node each alias stands for. -/
structure Document where
  events : Array Event
  targets : List (Nat × Nat)

/-- Numbers the anchors: `names` gives the number of each name, `places` the event of each number,
the latest first. A new anchor takes the count of names before it as its number. -/
structure Anchors where
  names : List (List Char × Nat)
  places : List (Nat × Nat)

def Anchors.add (a : Anchors) (place : Nat) : Option (List Char) → Anchors
  | none => a
  | some name =>
    let number := a.names.length
    ⟨(name, number) :: a.names.filter (fun e => e.1 ≠ name), (number, place) :: a.places⟩

/-- Follows the anchors through a document: an alias needs an anchor before it. The result lists the
number that each alias, given by its place, refers to. -/
def numberAliases? (a : Anchors) (place : Nat) : List Event → Option (List (Nat × Nat) × Anchors)
  | [] => some ([], a)
  | .reference name :: rest => do
    let number ← a.names.lookup name
    let (aliases, a) ← numberAliases? a (place + 1) rest
    return ((place, number) :: aliases, a)
  | .scalar props _ _ :: rest => numberAliases? (a.add place props.anchor) (place + 1) rest
  | .sequenceStart props :: rest => numberAliases? (a.add place props.anchor) (place + 1) rest
  | .mappingStart props :: rest => numberAliases? (a.add place props.anchor) (place + 1) rest
  | _ :: rest => numberAliases? a (place + 1) rest

namespace Document

/-- A document from its events; each alias gets the place that its number stands for at the end. -/
def ofEvents? (events : List Event) : Option Document := do
  let (aliases, anchors) ← numberAliases? ⟨[], []⟩ 0 events
  let targets ← aliases.mapM fun (place, number) =>
    (anchors.places.lookup number).map fun target => (place, target)
  return ⟨events.toArray, targets⟩

mutual

/-- The node at a place, the place behind it, and the count of aliases followed so far. `depth`
counts the levels of nesting that are left. -/
def node? (d : Document) (fuel depth place jumps : Nat) (known : Bool) :
    Option (Node × Nat × Nat) :=
  match fuel with
  | 0 => none
  | fuel + 1 => do
    match ← d.events[place]? with
    | .reference _ =>
      -- An alias may hold others, so a short text could stand for a tree too large to build.
      if d.events.size * 100 ≤ jumps then none
      let target ← d.targets.lookup place
      let (n, _, jumps) ← node? d fuel depth target (jumps + 1) false
      return (n, place + 1, jumps)
    | .scalar props text style =>
      match known, Node.ownTag? props.tag with
      | false, some tag =>
        let n ← Node.ofScalar? true props.tag text style
        return (.tagged tag n, place + 1, jumps)
      | _, _ =>
        let n ← Node.ofScalar? known props.tag text style
        return (n, place + 1, jumps)
    | .sequenceStart props =>
      match known, Node.ownTag? props.tag with
      | false, some tag =>
        let (n, next, jumps) ← node? d fuel depth place jumps true
        return (.tagged tag n, next, jumps)
      | _, _ =>
        match depth with
        | 0 => none
        | depth + 1 =>
          let (items, next, jumps) ← items? d fuel depth (place + 1) jumps
          return (.seq items, next, jumps)
    | .mappingStart props =>
      match known, Node.ownTag? props.tag with
      | false, some tag =>
        let (n, next, jumps) ← node? d fuel depth place jumps true
        return (.tagged tag n, next, jumps)
      | _, _ =>
        match depth with
        | 0 => none
        | depth + 1 =>
          let (entries, next, jumps) ← entries? d fuel depth (place + 1) jumps []
          return (.map entries, next, jumps)
    | _ => none

def items? (d : Document) (fuel depth place jumps : Nat) : Option (List Node × Nat × Nat) :=
  match fuel with
  | 0 => none
  | fuel + 1 => do
    match ← d.events[place]? with
    | .sequenceEnd => return ([], place + 1, jumps)
    | _ =>
      let (n, place, jumps) ← node? d fuel depth place jumps false
      let (items, place, jumps) ← items? d fuel depth place jumps
      return (n :: items, place, jumps)

/-- The entries up to the end of a mapping, behind those in `seen`, last first. -/
def entries? (d : Document) (fuel depth place jumps : Nat) (seen : List (Node × Node)) :
    Option (List (Node × Node) × Nat × Nat) :=
  match fuel with
  | 0 => none
  | fuel + 1 => do
    match ← d.events[place]? with
    | .mappingEnd => return (seen.reverse, place + 1, jumps)
    | _ =>
      let (k, place, jumps) ← node? d fuel depth place jumps false
      if seen.any fun e => k.same e.1 then none
      let (v, place, jumps) ← node? d fuel depth place jumps false
      entries? d fuel depth place jumps ((k, v) :: seen)

end

def nestingLimit : Nat := 128

def tree? (d : Document) : Option Node :=
  (d.node? ((nestingLimit + 2) * (d.events.size + 2)) nestingLimit 0 0 false).map (·.1)

end Document

/-- The tree of a text that holds at most one document; null when it holds none. -/
def read? (text : String) : Option Node := do
  match ← events? text with
  | [] => return .null
  | .documentStart :: rest =>
    let body := rest.takeWhile (· ≠ .documentEnd)
    if rest.drop (body.length + 1) ≠ [] then none
    let d ← Document.ofEvents? body
    d.tree?
  | _ => none

end CrewFlow.Yaml
