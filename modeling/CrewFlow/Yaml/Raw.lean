import CrewFlow.Yaml.Node
/-!
# Raw trees of a YAML document

The tree of a document whose scalars are left as they are written and whose aliases are followed only
on demand. It serves readers that know which kind of value they want: a text is any scalar, a number
only a plain one, and what nobody asks for may be anything.
-/
namespace CrewFlow.Yaml

/-- A node with scalars as they are written; an alias gives the place of what it stands for. -/
inductive Raw where
  | reference (target : Nat)
  | scalar (tag : Option Address) (text : List Char) (style : Style)
  | seq (items : List Raw)
  | map (entries : List (Raw × Raw))
  deriving Inhabited

namespace Document

mutual

def raw? (d : Document) (fuel place : Nat) : Option (Raw × Nat) :=
  match fuel with
  | 0 => none
  | fuel + 1 => do
    match ← d.events[place]? with
    | .reference _ => return (.reference (← d.targets.lookup place), place + 1)
    | .scalar props text style => return (.scalar props.tag text style, place + 1)
    | .sequenceStart _ =>
      let (items, next) ← rawItems? d fuel (place + 1)
      return (.seq items, next)
    | .mappingStart _ =>
      let (entries, next) ← rawEntries? d fuel (place + 1)
      return (.map entries, next)
    | _ => none

def rawItems? (d : Document) (fuel place : Nat) : Option (List Raw × Nat) :=
  match fuel with
  | 0 => none
  | fuel + 1 => do
    match ← d.events[place]? with
    | .sequenceEnd => return ([], place + 1)
    | _ =>
      let (n, place) ← raw? d fuel place
      let (items, place) ← rawItems? d fuel place
      return (n :: items, place)

def rawEntries? (d : Document) (fuel place : Nat) : Option (List (Raw × Raw) × Nat) :=
  match fuel with
  | 0 => none
  | fuel + 1 => do
    match ← d.events[place]? with
    | .mappingEnd => return ([], place + 1)
    | _ =>
      let (k, place) ← raw? d fuel place
      let (v, place) ← raw? d fuel place
      let (entries, place) ← rawEntries? d fuel place
      return ((k, v) :: entries, place)

end

/-- The raw node at a place. Each event is met once. -/
def rawAt? (d : Document) (place : Nat) : Option Raw :=
  (d.raw? (2 * d.events.size + 1) place).map (·.1)

/-- What a raw node stands for: the target of an alias, which is no alias, and all else itself. -/
def follow? (d : Document) : Raw → Option Raw
  | .reference target => d.rawAt? target
  | r => some r

/-- The document of a text that holds at most one; an empty scalar when it holds none. -/
def read? (text : String) : Option Document := do
  match ← events? text with
  | [] => return ⟨#[.scalar .none [] .plain], []⟩
  | .documentStart :: rest =>
    let body := rest.takeWhile (· ≠ .documentEnd)
    if rest.drop (body.length + 1) ≠ [] then none
    Document.ofEvents? body
  | _ => none

end Document

namespace Raw

def text? (r : Raw) (d : Document) : Option String := do
  match ← d.follow? r with
  | .scalar _ text _ => some (String.ofList text)
  | _ => none

/-- The entries of a mapping; an empty plain scalar stands for an empty one. -/
def entries? (r : Raw) (d : Document) : Option (List (Raw × Raw)) := do
  match ← d.follow? r with
  | .map entries => some entries
  | .scalar _ [] .plain => some []
  | _ => none

/-- A text or null. Only plain scalars are null. -/
def optionalText? (r : Raw) (d : Document) : Option (Option String) := do
  match ← d.follow? r with
  | .scalar tag text .plain =>
    match tag with
    | some tag =>
      if tag = Plain.coreTag "null" then if Plain.isNull text then some none else none
      else some (some (String.ofList text))
    | none =>
      if text.isEmpty || Plain.isNull text then some none else some (some (String.ofList text))
  | .scalar _ text _ => some (some (String.ofList text))
  | _ => none

/-- Whether a scalar may be a number: a plain one, or a literal one with the tag of integers. -/
def mayBeNumber (tag : Option Address) : Style → Bool
  | .plain => true
  | .literal => tag == some (Plain.coreTag "int")
  | _ => false

def natural? (r : Raw) (d : Document) (bound : Nat) : Option Nat := do
  match ← d.follow? r with
  | .scalar tag text style =>
    if !mayBeNumber tag style || text.head? = some '-' then none
    else
      match Plain.integer? text with
      | some n => if n < bound then some n.toNat else none
      | none => none
  | _ => none

end Raw

end CrewFlow.Yaml
