import Flatsheet.Yaml.Document

/-!
How a YAML document comes out of the graph of its nodes. The nodes are read from the root on, each
collection once and after those met before it, so of two faults the one nearer to the root counts.
-/

namespace Flatsheet.Yaml

namespace Reading

structure State where
  graph : Graph
  /-- The values of the nodes that have been met. -/
  values : Array (Option Value)
  collections : Array Collection
  /-- The collections that have been met and not yet read, in order. -/
  pending : List NodeId

abbrev ReadM := StateT State (Except Error)

def fail {α : Type} : ReadM α := throw Error.malformed

def node (id : NodeId) : ReadM Node := return (← get).graph.node id

def update (id : NodeId) (change : Node → Node) : ReadM Unit :=
  modify fun state => { state with graph := state.graph.update id change }

def isMergeKey (graph : Graph) (id : NodeId) : Bool := (graph.node id).kind == .scalar .merge

def isValueKey (graph : Graph) (id : NodeId) : Bool := (graph.node id).kind == .scalar .value

def entriesOf (id : NodeId) : ReadM (List (NodeId × NodeId)) := do
  match (← node id).shape with
  | .mapping entries => return entries
  | _ => fail

def setEntries (id : NodeId) (entries : List (NodeId × NodeId)) : ReadM Unit :=
  update id fun node => { node with shape := .mapping entries }

/-- Takes the first merge key out of a mapping, and gives its value. -/
def takeMerge? (id : NodeId) : ReadM (Option NodeId) := do
  let graph := (← get).graph
  let entries ← entriesOf id
  let isOwn := fun (entry : NodeId × NodeId) => !isMergeKey graph entry.1
  match entries.dropWhile isOwn with
  | [] => return none
  | (_, value) :: later =>
      setEntries id (entries.takeWhile isOwn ++ later)
      return some value

/-- The mappings that the value of a merge key names: itself, or its items. -/
def mergeSources (value : NodeId) : ReadM (List NodeId) := do
  match (← node value).shape with
  | .mapping _ => return [value]
  | .sequence items => return items
  | .scalar _ => fail

/-- From now on the key `=` is a text like any other. -/
def nameValueKeys (id : NodeId) : ReadM Unit := do
  for entry in ← entriesOf id do
    if isValueKey (← get).graph entry.1 then
      update entry.1 fun node => { node with kind := .scalar .string }

/-- Carries out the merge keys of a mapping. What they bring in comes before the entries of its own,
so that these prevail, and of several mappings the first prevails. Each step takes a merge key out
for good. -/
def merge : (fuel : Nat) → NodeId → ReadM Unit
  | 0, _ => fail
  | fuel + 1, id => do
      match ← takeMerge? id with
      | none => nameValueKeys id
      | some value =>
          let brought ← (← mergeSources value).mapM fun source => do
            merge fuel source
            entriesOf source
          merge fuel id
          setEntries id (brought.reverse.flatten ++ (← entriesOf id))

/-- How many entries all mappings have together; no more of them are merge keys. -/
def entryCount (graph : Graph) : Nat :=
  graph.foldl (fun count node =>
    match node.shape with
    | .mapping entries => count + entries.length
    | _ => count) 0

/-- The content of a node that is read as a scalar. A mapping has the content of its entry under the
key `=`. -/
def contentOf : (fuel : Nat) → NodeId → ReadM Content
  | 0, _ => fail
  | fuel + 1, id => do
      match (← node id).shape with
      | .scalar content => return content
      | .sequence _ => fail
      | .mapping entries =>
          let graph := (← get).graph
          match entries.find? fun entry => isValueKey graph entry.1 with
          | some (_, value) => contentOf fuel value
          | none => fail

def scalarValue (id : NodeId) (kind : ScalarKind) : ReadM Value := do
  let content ← contentOf ((← get).graph.size + 1) id
  match kind, (← node id).shape with
  | .timestamp, .mapping _ => throw .timestampMapping
  | kind, _ => Value.ofScalar kind content

/-- The value of a node that is met for the first time. Collections are to be read later. -/
def newValue (id : NodeId) : ReadM Value := do
  match (← node id).kind with
  | .scalar kind => scalarValue id kind
  | .binary => do Value.ofBinary (← contentOf ((← get).graph.size + 1) id)
  | .unknown => fail
  | .sequence | .mapping | .set | .orderedMapping | .pairs =>
      modify fun state => { state with pending := state.pending ++ [id] }
      return .collection id

def valueOf (id : NodeId) : ReadM Value := do
  match (← get).values.getD id none with
  | some value => return value
  | none =>
      let value ← newValue id
      modify fun state => { state with values := state.values.setIfInBounds id (some value) }
      return value

def entryOf (entry : NodeId × NodeId) : ReadM (Value × Value) := do
  let key ← valueOf entry.1
  if !key.isKey then fail
  return (key, ← valueOf entry.2)

/-- The entries of a mapping, after merging. -/
def readEntries (id : NodeId) : ReadM (List (Value × Value)) := do
  merge (entryCount (← get).graph + 1) id
  return Collection.byKey (← (← entriesOf id).mapM entryOf)

def itemsOf (id : NodeId) : ReadM (List NodeId) := do
  match (← node id).shape with
  | .sequence items => return items
  | _ => fail

/-- The entry of a mapping that has only one. -/
def readPair (id : NodeId) : ReadM Value := do
  match ← entriesOf id with
  | [(key, value)] => return .pair (← valueOf key) (← valueOf value)
  | _ => fail

/-- What a collection holds. -/
def readCollection (id : NodeId) : ReadM Collection := do
  match (← node id).kind with
  | .mapping => return .mapping (← readEntries id)
  | .set => return .set ((← readEntries id).map Prod.fst)
  | .sequence => return .list (← (← itemsOf id).mapM valueOf)
  | .orderedMapping | .pairs => return .list (← (← itemsOf id).mapM readPair)
  | _ => fail

/-- Reads the collections that have been met, and those that are met meanwhile. Each is met once. -/
def readPending : (fuel : Nat) → ReadM Unit
  | 0 => return ()
  | fuel + 1 => do
      match (← get).pending with
      | [] => return ()
      | id :: pending =>
          modify fun state => { state with pending }
          let collection ← readCollection id
          modify fun state =>
            { state with collections := state.collections.setIfInBounds id collection }
          readPending fuel

def read (root : NodeId) : ReadM Value := do
  let value ← valueOf root
  readPending (← get).graph.size
  return value

end Reading

namespace Document

/-- The document whose root is a node of a graph. -/
def ofGraph (graph : Graph) (root : NodeId) : Except Error Document := do
  let start : Reading.State :=
    ⟨graph, Array.replicate graph.size none, Array.replicate graph.size .empty, []⟩
  let (value, state) ← (Reading.read root).run start
  return ⟨value, state.collections⟩

/-- What a text holds as a YAML document. No document at all holds nothing. -/
def ofText (text : Text) : Except Error Document := do
  match ← Graph.ofStream (← Token.scan text) with
  | (some root, graph) => ofGraph graph root
  | (none, _) => return ⟨.null, #[]⟩

end Document

end Flatsheet.Yaml
