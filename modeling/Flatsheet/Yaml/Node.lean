import Flatsheet.Yaml.Scalar
import Flatsheet.Yaml.Token

/-!
The nodes of a YAML document: scalars, sequences and mappings, each with the kind that its tag gives
it. An alias is one more edge to a node that is there already, so the nodes form a graph, in which a
collection may even hold itself.
-/

namespace Flatsheet.Yaml

inductive NodeKind where
  | scalar (kind : ScalarKind)
  | binary
  | sequence
  | mapping
  | set
  | orderedMapping
  | pairs
  /-- A tag that stands for nothing known. -/
  | unknown
deriving DecidableEq, Repr

namespace NodeKind

/-- The name space of the tags that are known. -/
def space : Text := "tag:yaml.org,2002:"

def known : List (Text × NodeKind) :=
  [("null", .scalar .null), ("bool", .scalar .bool), ("int", .scalar .int),
    ("float", .scalar .float), ("timestamp", .scalar .timestamp), ("str", .scalar .string),
    ("binary", .binary), ("seq", .sequence), ("map", .mapping), ("set", .set),
    ("omap", .orderedMapping), ("pairs", .pairs), ("merge", .scalar .merge),
    ("value", .scalar .value)]

def ofTag (tag : Text) : NodeKind :=
  match Text.dropPrefix? space tag with
  | some name => (known.lookup name).getD .unknown
  | none => .unknown

/-- The marks that mean nothing when they stand alone. -/
def bareMarks : List Text := ["!", "&", "*"]

/-- The text by whose look a scalar is told: a final line feed does not matter. -/
def lookOf (text : Text) : Text :=
  if text.endsWith ['\n'] ∧ 1 < text.length then text.dropLast else text

/-- The kind of a scalar that is told by its look. -/
def ofLook (content : Content) : NodeKind :=
  match content.text? with
  | some text =>
      if bareMarks.contains (lookOf text) then .unknown else .scalar (.ofPlain (lookOf text))
  | none => .scalar .string

end NodeKind

/-- The place of a node in its graph. -/
abbrev NodeId := Nat

inductive Shape where
  | scalar (content : Content)
  | sequence (items : List NodeId)
  | mapping (entries : List (NodeId × NodeId))
deriving DecidableEq, Repr

structure Node where
  kind : NodeKind
  shape : Shape
deriving DecidableEq, Repr

namespace Node

/-- The node of a place where nothing is written. -/
def empty : Node := ⟨.scalar .null, .scalar []⟩

end Node

abbrev Graph := Array Node

namespace Graph

def node (graph : Graph) (id : NodeId) : Node := graph.getD id .empty

/-- The graph with a node changed. -/
def update (graph : Graph) (id : NodeId) (change : Node → Node) : Graph :=
  graph.setIfInBounds id (change (graph.node id))

structure State where
  stream : Token.Stream
  /-- The name spaces of tag handles. -/
  handles : List (Text × Text)
  anchors : List (Text × NodeId)
  graph : Graph

abbrev GraphM := StateT State (Except Error)

def fail {α : Type} : GraphM α := throw Error.malformed

/-- The next token; none at the end of the document. -/
def peek? : GraphM (Option Token) := do
  let stream := (← get).stream
  match stream.tokens, stream.fault with
  | token :: _, _ => return some token
  | [], some fault => throw fault
  | [], none => return none

def skip : GraphM Unit :=
  modify fun state =>
    { state with stream := { state.stream with tokens := state.stream.tokens.tail } }

/-- Takes the token if it comes next, and says whether it did. -/
def accept (token : Token) : GraphM Bool := do
  if (← peek?) = some token then
    skip
    return true
  else return false

def expect (token : Token) : GraphM Unit := do
  if !(← accept token) then fail

/-- Whether one of the tokens comes next. -/
def isNext (tokens : List Token) : GraphM Bool := do
  match ← peek? with
  | some token => return tokens.contains token
  | none => return false

def add (node : Node) : GraphM NodeId := do
  let id := (← get).graph.size
  modify fun state => { state with graph := state.graph.push node }
  return id

def setShape (id : NodeId) (shape : Shape) : GraphM Unit :=
  modify fun state => { state with graph := state.graph.update id fun node => { node with shape } }

/-- The full name of a tag. -/
def resolveTag (tag : Tag) : GraphM Text := do
  match tag.handle with
  | none => return tag.suffix
  | some handle =>
      match (← get).handles.lookup handle with
      | some space => return space ++ tag.suffix
      | none => fail

/-- Reads an anchor and a tag, in either order. -/
def readProperties : GraphM (Option Text × Option Text) := do
  match ← peek? with
  | some (.anchor name) => do
      skip
      match ← peek? with
      | some (.tag tag) => do skip; return (some name, some (← resolveTag tag))
      | _ => return (some name, none)
  | some (.tag tag) => do
      skip
      match ← peek? with
      | some (.anchor name) => do skip; return (some name, some (← resolveTag tag))
      | _ => return (none, some (← resolveTag tag))
  | _ => return (none, none)

/-- The tag that asks for the kind that a node would have without one. -/
def plainTag : Text := ['!']

/-- The kind of a scalar: by its tag, or else by its look if it is plain. -/
def scalarKind (tag : Option Text) (isPlain : Bool) (content : Content) : NodeKind :=
  match tag with
  | some name => if name = plainTag then .ofLook content else .ofTag name
  | none => if isPlain then .ofLook content else .scalar .string

def collectionKind (tag : Option Text) (untagged : NodeKind) : NodeKind :=
  match tag with
  | some name => if name = plainTag then untagged else .ofTag name
  | none => untagged

/-- Adds a node, with a name if it has an anchor. A name is given once. -/
def addNamed (anchor : Option Text) (node : Node) : GraphM NodeId := do
  match anchor with
  | none => add node
  | some name =>
      if ((← get).anchors.lookup name).isSome then fail
      let id ← add node
      modify fun state => { state with anchors := (name, id) :: state.anchors }
      return id

/-- Adds a sequence. It is there before its items are read, since they may name it. -/
def addSequence (anchor tag : Option Text) (readItems : GraphM (List NodeId)) : GraphM NodeId := do
  let id ← addNamed anchor ⟨collectionKind tag .sequence, .sequence []⟩
  setShape id (.sequence (← readItems))
  return id

/-- Adds a mapping. It is there before its entries are read, since they may name it. -/
def addMapping (anchor tag : Option Text) (readEntries : GraphM (List (NodeId × NodeId))) :
    GraphM NodeId := do
  let id ← addNamed anchor ⟨collectionKind tag .mapping, .mapping []⟩
  setShape id (.mapping (← readEntries))
  return id

/-- Where a node stands: block collections may start only in a block, and a sequence needs no
further indentation as the value of a mapping. -/
inductive Place where
  | flow
  | block
  | mappingValue
deriving DecidableEq, Repr

mutual

def readNode : (fuel : Nat) → Place → GraphM NodeId
  | 0, _ => fail
  | fuel + 1, place => do
      if let some (.alias name) ← peek? then
        skip
        match (← get).anchors.lookup name with
        | some node => return node
        | none => fail
      else
        let (anchor, tag) ← readProperties
        let token ← peek?
        if place = .mappingValue ∧ token = some .blockEntry then
          addSequence anchor tag (readIndentlessItems fuel)
        else match token with
          | some (.scalar content isPlain) =>
              skip
              addNamed anchor ⟨scalarKind tag isPlain content, .scalar content⟩
          | some .flowSequenceStart =>
              addSequence anchor tag do skip; readFlowItems fuel true
          | some .flowMappingStart =>
              addMapping anchor tag do skip; readFlowEntries fuel true
          | some .blockSequenceStart =>
              if place = .flow then fail
              addSequence anchor tag do skip; readBlockItems fuel
          | some .blockMappingStart =>
              if place = .flow then fail
              addMapping anchor tag do skip; readBlockEntries fuel
          | _ =>
              if anchor.isNone ∧ tag.isNone then fail
              addNamed anchor ⟨scalarKind tag true [], .scalar []⟩

/-- Reads a node, or nothing if one of the tokens comes next. -/
def readNodeUnless : (fuel : Nat) → List Token → Place → GraphM NodeId
  | 0, _, _ => fail
  | fuel + 1, tokens, place => do
      if ← isNext tokens then add .empty else readNode fuel place

def readBlockItems : (fuel : Nat) → GraphM (List NodeId)
  | 0 => fail
  | fuel + 1 => do
      if ← accept .blockEntry then
        let item ← readNodeUnless fuel [.blockEntry, .blockEnd] .block
        return item :: (← readBlockItems fuel)
      else
        expect .blockEnd
        return []

def readIndentlessItems : (fuel : Nat) → GraphM (List NodeId)
  | 0 => fail
  | fuel + 1 => do
      if ← accept .blockEntry then
        let item ← readNodeUnless fuel [.blockEntry, .key, .value, .blockEnd] .block
        return item :: (← readIndentlessItems fuel)
      else return []

def readBlockEntries : (fuel : Nat) → GraphM (List (NodeId × NodeId))
  | 0 => fail
  | fuel + 1 => do
      if ← accept .key then
        let key ← readNodeUnless fuel [.key, .value, .blockEnd] .mappingValue
        let value ←
          if ← accept .value then readNodeUnless fuel [.key, .value, .blockEnd] .mappingValue
          else add .empty
        return (key, value) :: (← readBlockEntries fuel)
      else
        expect .blockEnd
        return []

def readFlowItems : (fuel : Nat) → (isFirst : Bool) → GraphM (List NodeId)
  | 0, _ => fail
  | fuel + 1, isFirst => do
      if ← accept .flowSequenceEnd then return []
      if !isFirst then
        expect .flowEntry
      if ← accept .key then
        let key ← readNodeUnless fuel [.value, .flowEntry, .flowSequenceEnd] .flow
        let value ←
          if ← accept .value then readNodeUnless fuel [.flowEntry, .flowSequenceEnd] .flow
          else add .empty
        let pair ← add ⟨.mapping, .mapping [(key, value)]⟩
        return pair :: (← readFlowItems fuel false)
      else if ← accept .flowSequenceEnd then return []
      else
        let item ← readNode fuel .flow
        return item :: (← readFlowItems fuel false)

def readFlowEntries : (fuel : Nat) → (isFirst : Bool) → GraphM (List (NodeId × NodeId))
  | 0, _ => fail
  | fuel + 1, isFirst => do
      if ← accept .flowMappingEnd then return []
      if !isFirst then
        expect .flowEntry
      if ← accept .key then
        let key ← readNodeUnless fuel [.value, .flowEntry, .flowMappingEnd] .flow
        let value ←
          if ← accept .value then readNodeUnless fuel [.flowEntry, .flowMappingEnd] .flow
          else add .empty
        return (key, value) :: (← readFlowEntries fuel false)
      else if ← accept .flowMappingEnd then return []
      else
        let key ← readNode fuel .flow
        return (key, ← add .empty) :: (← readFlowEntries fuel false)

end

/-- The name spaces that handles stand for unless a directive says otherwise. -/
def defaultHandles : List (Text × Text) := [("!", "!"), ("!!", NodeKind.space)]

/-- Takes directives into account: one version at most, of which only the first is known, and one
name space for each handle. -/
def readDirectives : (fuel : Nat) → (hasVersion : Bool) → (handles : List (Text × Text)) →
    GraphM Unit
  | 0, _, _ => fail
  | fuel + 1, hasVersion, handles => do
      match ← peek? with
      | some (.directive directive) =>
          skip
          match directive with
          | .version major _ =>
              if hasVersion ∨ major ≠ 1 then fail
              readDirectives fuel true handles
          | .handle name space =>
              if (handles.lookup name).isSome then fail
              readDirectives fuel hasVersion ((name, space) :: handles)
          | .other => readDirectives fuel hasVersion handles
      | _ => modify fun state => { state with handles := handles ++ defaultHandles }

/-- Reads the directives of a document, and the mark that must follow. -/
def readPreamble (fuel : Nat) : GraphM Unit := do
  readDirectives fuel false []
  expect .documentStart

/-- Whether a document ends here. -/
def atDocumentEnd : GraphM Bool := do
  match ← peek? with
  | none | some (.directive _) | some .documentStart | some .documentEnd => return true
  | _ => return false

def skipDocumentEnds : (fuel : Nat) → GraphM Unit
  | 0 => return ()
  | fuel + 1 => do
      if ← accept .documentEnd then skipDocumentEnds fuel

/-- Reads the only document; none if there is no document at all. Without directives and marks a
document cannot be empty. -/
def readDocument (fuel : Nat) : GraphM (Option NodeId) := do
  let root ←
    match ← peek? with
    | none => return none
    | some (.directive _) | some .documentStart => do
        readPreamble fuel
        if ← atDocumentEnd then add .empty else readNode fuel .block
    | _ => readNode fuel .block
  skipDocumentEnds fuel
  if (← peek?).isSome then
    readPreamble fuel
    fail
  return some root

/-- The root of a document in the graph of its nodes; none if there is no document. -/
def ofStream (stream : Token.Stream) : Except Error (Option NodeId × Graph) := do
  let fuel := 6 * stream.tokens.length + 6
  let (root, state) ← (readDocument fuel).run ⟨stream, defaultHandles, [], #[]⟩
  return (root, state.graph)

end Graph

end Flatsheet.Yaml
