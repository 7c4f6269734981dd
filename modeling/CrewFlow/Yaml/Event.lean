import CrewFlow.Yaml.Stream
/-!
# Events of a YAML document

The events of a document: scalars, aliases and the two ends of every collection. A stack automaton
reads them off the tokens, one event a step; an entry that is not written counts as an empty plain
scalar.
-/
namespace CrewFlow.Yaml

structure Props where
  anchor : Option (List Char)
  tag : Option Address
  deriving DecidableEq, Repr

def Props.none : Props := ⟨Option.none, Option.none⟩

inductive Event where
  | reference (name : List Char)
  | scalar (props : Props) (text : List Char) (style : Style)
  | sequenceStart (props : Props)
  | sequenceEnd
  | mappingStart (props : Props)
  | mappingEnd
  | documentStart
  | documentEnd
  | streamEnd
  deriving DecidableEq, Repr

/-- What the automaton expects next. -/
inductive Expect where
  | firstDocument
  | document
  | content
  | documentClose
  | node
  | firstItem
  | item
  | flatItem
  | firstKey
  | key
  | value
  | firstFlowItem
  | flowItem
  | pairKey
  | pairValue
  | pairClose
  | firstFlowKey
  | flowKey
  | flowValue
  | flowNoValue
  deriving DecidableEq, Repr

/-- The state of the automaton: what comes next, what comes after the open collections, the tokens
that are left, and the tag handles of the document. -/
structure Automaton where
  expect : Expect
  stack : List Expect
  tokens : List Token
  handles : List (List Char × Address)

def defaultHandles : List (List Char × Address) :=
  [(['!'], [0x21]), (['!', '!'], "tag:yaml.org,2002:".toUTF8.toList)]

namespace Automaton

def ofTokens (tokens : List Token) : Automaton := ⟨.firstDocument, [], tokens.drop 1, []⟩

def drop (a : Automaton) : Automaton := { a with tokens := a.tokens.drop 1 }

/-- The next token; behind the last one, the end of the stream. -/
def next (a : Automaton) : Token := a.tokens.headD .streamEnd

def goTo (a : Automaton) (e : Expect) : Automaton := { a with expect := e }

def pop (a : Automaton) : Automaton :=
  match a.stack with
  | e :: rest => { a with expect := e, stack := rest }
  | [] => a

/-- Remembers what to expect behind the node that comes now. -/
def push (a : Automaton) (e : Expect) : Automaton := { a with stack := e :: a.stack }

def empty (a : Automaton) (e : Expect) : Option (Event × Automaton) :=
  some (.scalar .none [] .plain, a.goTo e)

/-- Anchor and tag in front of a node, in either order. -/
def props (a : Automaton) :
    Option (List Char) × Option (List Char × Address) × Automaton :=
  match a.next with
  | .anchor name =>
    match a.drop.next with
    | .tag handle suffix => (some name, some (handle, suffix), a.drop.drop)
    | _ => (some name, none, a.drop)
  | .tag handle suffix =>
    match a.drop.next with
    | .anchor name => (some name, some (handle, suffix), a.drop.drop)
    | _ => (none, some (handle, suffix), a.drop)
  | _ => (none, none, a)

def resolveTag? (a : Automaton) : Option (List Char × Address) → Option (Option Address)
  | none => some none
  | some ([], suffix) => some (some (counted suffix))
  | some (handle, suffix) =>
    (a.handles.lookup handle).map fun lead => some (counted lead ++ counted suffix)

/-- A node. `block` allows block collections, `flat` a sequence without indentation of its own. -/
def node? (a : Automaton) (block flat : Bool) : Option (Event × Automaton) := do
  match a.next with
  | .reference name => return (.reference name, a.drop.pop)
  | _ =>
    let (anchor, written, a) := a.props
    let tag ← a.resolveTag? written
    let props : Props := ⟨anchor, tag⟩
    match a.next with
    | .scalar text style => return (.scalar props text style, a.drop.pop)
    | .flowSequenceStart => return (.sequenceStart props, a.goTo .firstFlowItem)
    | .flowMappingStart => return (.mappingStart props, a.goTo .firstFlowKey)
    | t =>
      if flat ∧ t = .blockEntry then return (.sequenceStart props, a.goTo .flatItem)
      else if block ∧ t = .blockSequenceStart then return (.sequenceStart props, a.goTo .firstItem)
      else if block ∧ t = .blockMappingStart then return (.mappingStart props, a.goTo .firstKey)
      else if anchor.isSome || tag.isSome then return (.scalar props [] .plain, a.pop)
      else none

/-- Reads directives: at most one version, 1.1 or 1.2, and no handle twice. -/
def directives? (version : Bool) (handles : List (List Char × Address)) :
    List Token → Option (List (List Char × Address) × List Token)
  | .versionDirective major minor :: rest =>
    if version || major ≠ 1 || (minor ≠ 1 && minor ≠ 2) then none
    else directives? true handles rest
  | .tagDirective handle lead :: rest =>
    if (handles.lookup handle).isSome then none
    else directives? version (handles ++ [(handle, lead)]) rest
  | tokens => some (handles ++ defaultHandles, tokens)

/-- The start of a document, or the end of the stream. Only the first document may start without a
marker. -/
def document? (a : Automaton) (first : Bool) : Option (Event × Automaton) := do
  let a := if first then a else { a with tokens := a.tokens.dropWhile (· == .documentEnd) }
  let explicit := match a.next with
    | .versionDirective .. | .tagDirective .. | .documentStart => true
    | _ => false
  if a.next = .streamEnd then return (.streamEnd, a.drop)
  else
    let (handles, tokens) ← directives? false [] a.tokens
    let a := { a with handles, tokens }
    if first && !explicit then return (.documentStart, (a.push .documentClose).goTo .node)
    else if a.next = .documentStart then
      return (.documentStart, (a.drop.push .documentClose).goTo .content)
    else none

def step? (a : Automaton) : Option (Event × Automaton) :=
  match a.expect with
  | .firstDocument => a.document? true
  | .document => a.document? false
  | .content =>
    match a.next with
    | .versionDirective .. | .tagDirective .. | .documentStart | .documentEnd | .streamEnd =>
      some (.scalar .none [] .plain, a.pop)
    | _ => a.node? true false
  | .documentClose =>
    let a := if a.next = .documentEnd then a.drop else a
    -- Handles hold for one document.
    some (.documentEnd, { a with expect := .document, handles := [] })
  | .node => a.node? true false
  | .firstItem => item? a.drop
  | .item => item? a
  | .flatItem =>
    match a.next with
    | .blockEntry =>
      let a := a.drop
      match a.next with
      | .blockEntry | .key | .value | .blockEnd => a.empty .flatItem
      | _ => (a.push .flatItem).node? true false
    -- Without indentation of its own no token closes it.
    | _ => some (.sequenceEnd, a.pop)
  | .firstKey => key? a.drop
  | .key => key? a
  | .value =>
    match a.next with
    | .value =>
      let a := a.drop
      match a.next with
      | .key | .value | .blockEnd => a.empty .key
      | _ => (a.push .key).node? true true
    | _ => a.empty .key
  | .firstFlowItem => flowItem? true a.drop
  | .flowItem => flowItem? false a
  | .pairKey =>
    match a.next with
    -- The token is passed over, even a colon: the value behind it is not found any more.
    | .value | .flowEntry | .flowSequenceEnd => a.drop.empty .pairValue
    | _ => (a.push .pairValue).node? false false
  | .pairValue =>
    match a.next with
    | .value =>
      let a := a.drop
      match a.next with
      | .flowEntry | .flowSequenceEnd => a.empty .pairClose
      | _ => (a.push .pairClose).node? false false
    | _ => a.empty .pairClose
  | .pairClose => some (.mappingEnd, a.goTo .flowItem)
  | .firstFlowKey => flowKey? true a.drop
  | .flowKey => flowKey? false a
  | .flowValue =>
    match a.next with
    | .value =>
      let a := a.drop
      match a.next with
      | .flowEntry | .flowMappingEnd => a.empty .flowKey
      | _ => (a.push .flowKey).node? false false
    | _ => a.empty .flowKey
  | .flowNoValue => a.empty .flowKey
where
  /-- An item of a block sequence, or its end. -/
  item? (a : Automaton) : Option (Event × Automaton) :=
    match a.next with
    | .blockEntry =>
      let a := a.drop
      match a.next with
      | .blockEntry | .blockEnd => a.empty .item
      | _ => (a.push .item).node? true false
    | .blockEnd => some (.sequenceEnd, a.drop.pop)
    | _ => none
  /-- A key of a block mapping, or its end. -/
  key? (a : Automaton) : Option (Event × Automaton) :=
    match a.next with
    | .key =>
      let a := a.drop
      match a.next with
      | .key | .value | .blockEnd => a.empty .value
      | _ => (a.push .value).node? true true
    | .blockEnd => some (.mappingEnd, a.drop.pop)
    | _ => none
  /-- An item of a flow sequence, a pair in it, or its end. -/
  flowItem? (first : Bool) (a : Automaton) : Option (Event × Automaton) := do
    if a.next = .flowSequenceEnd then return (.sequenceEnd, a.drop.pop)
    let a ← if first then some a else if a.next = .flowEntry then some a.drop else none
    match a.next with
    | .key => return (.mappingStart .none, a.drop.goTo .pairKey)
    | .flowSequenceEnd => return (.sequenceEnd, a.drop.pop)
    | _ => (a.push .flowItem).node? false false
  /-- A key of a flow mapping, or its end. -/
  flowKey? (first : Bool) (a : Automaton) : Option (Event × Automaton) := do
    if a.next = .flowMappingEnd then return (.mappingEnd, a.drop.pop)
    let a ← if first then some a else if a.next = .flowEntry then some a.drop else none
    match a.next with
    | .key =>
      let a := a.drop
      match a.next with
      | .value | .flowEntry | .flowMappingEnd => a.empty .flowValue
      | _ => (a.push .flowValue).node? false false
    | .flowMappingEnd => return (.mappingEnd, a.drop.pop)
    | _ => (a.push .flowNoValue).node? false false

def run? : Nat → Automaton → Option (List Event)
  | 0, _ => none
  | fuel + 1, a => do
    let (e, a) ← a.step?
    match e with
    | .streamEnd => return []
    | _ =>
      let rest ← run? fuel a
      return e :: rest

end Automaton

/-- The events of a text. A token makes at most four of them. -/
def events? (text : String) : Option (List Event) := do
  let tokens ← tokens? text
  (Automaton.ofTokens tokens).run? (4 * tokens.length + 8)

end CrewFlow.Yaml
