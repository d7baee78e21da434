import Flatsheet.Yaml.BlockText
import Flatsheet.Yaml.PlainText
import Flatsheet.Yaml.Property
import Flatsheet.Yaml.QuotedText

/-!
The tokens of a YAML document. Block collections have no brackets of their own: their starts and
ends are told by indentation. A key is known as one only at the colon after it, so its token and the
start of its mapping are put in behind what has been read since.
-/

namespace Flatsheet.Yaml

inductive Token where
  | directive (directive : Directive)
  | documentStart
  | documentEnd
  | blockSequenceStart
  | blockMappingStart
  | blockEnd
  | flowSequenceStart
  | flowSequenceEnd
  | flowMappingStart
  | flowMappingEnd
  | blockEntry
  | flowEntry
  | key
  | value
  | alias (name : Text)
  | anchor (name : Text)
  | tag (tag : Tag)
  | scalar (content : Content) (isPlain : Bool)
deriving DecidableEq, Repr

namespace Token

/-- A place where a key may have started, in case a colon follows on its line. -/
structure PossibleKey where
  /-- How many tokens come before it. -/
  position : Nat
  /-- Something is wrong if no colon follows. -/
  isRequired : Bool
  index : Nat
  line : Nat
  column : Nat

structure State where
  cursor : Cursor
  tokens : List Token
  /-- The column of the innermost block collection, or -1 outside all of them. -/
  indent : Int
  /-- The columns of the block collections around it. -/
  indents : List Int
  /-- How many flow collections are open. -/
  flowLevel : Nat
  allowsKey : Bool
  /-- At most one possible key for each flow level. -/
  possibleKeys : List (Nat × PossibleKey)

namespace State

def start (text : Text) : State := ⟨Cursor.start text, [], -1, [], 0, true, []⟩

def push (state : State) (token : Token) : State := { state with tokens := state.tokens ++ [token] }

def inFlow (state : State) : Bool := state.flowLevel != 0

/-- Closes the block collections that are indented further than `column`. -/
def unwindTo (column : Int) : List Int → State → State
  | [], state => state
  | outer :: indents, state =>
      if column < state.indent then
        unwindTo column indents ({ state with indent := outer, indents }.push .blockEnd)
      else state

def unwind (column : Int) (state : State) : State :=
  if state.inFlow then state else unwindTo column state.indents state

/-- Opens a block collection at `column` if it is indented further, and says whether it did. -/
def indentTo (column : Int) (state : State) : Bool × State :=
  if state.indent < column then
    (true, { state with indent := column, indents := state.indent :: state.indents })
  else (false, state)

def openBlock (token : Token) (state : State) : State :=
  let (opened, state) := state.indentTo state.cursor.column
  if opened then state.push token else state

/-- Forgets the possible key of this flow level. -/
def dropKey (state : State) : Except Error State :=
  match state.possibleKeys.lookup state.flowLevel with
  | some possible =>
      if possible.isRequired then .error .malformed
      else .ok { state with possibleKeys := state.possibleKeys.filter (·.1 != state.flowLevel) }
  | none => .ok state

/-- Notes that a key may start here. -/
def noteKey (state : State) : Except Error State := do
  if !state.allowsKey then return state
  let state ← state.dropKey
  let cursor := state.cursor
  let isRequired := !state.inFlow && state.indent == cursor.column
  let possible : PossibleKey :=
    ⟨state.tokens.length, isRequired, cursor.index, cursor.line, cursor.column⟩
  return { state with possibleKeys := (state.flowLevel, possible) :: state.possibleKeys }

/-- The furthest that a key may reach. -/
def keyReach : Nat := 1024

/-- Forgets the keys that began on another line or too far back. -/
def dropStaleKeys (state : State) : Except Error State :=
  let isStale := fun (possible : PossibleKey) =>
    possible.line != state.cursor.line || keyReach < state.cursor.index - possible.index
  if state.possibleKeys.any fun entry => isStale entry.2 && entry.2.isRequired then
    .error .malformed
  else .ok { state with possibleKeys := state.possibleKeys.filter fun entry => !isStale entry.2 }

def insertAt (position : Nat) (token : Token) (state : State) : State :=
  { state with tokens := state.tokens.take position ++ token :: state.tokens.drop position }

/-- Adds a token of `width` characters. -/
def take (width : Nat) (token : Token) (state : State) : State :=
  { state with cursor := state.cursor.advance width }.push token

end State

/-- Skips spaces, comments and line breaks. On a new line a key may start, but not inside a flow
collection. -/
def skipToNext : (fuel : Nat) → State → State
  | 0, state => state
  | fuel + 1, state =>
      let cursor := state.cursor.skipSpaces
      let cursor := if cursor.peek? = some '#' then cursor.skipLine else cursor
      match cursor.lineBreak? with
      | some (_, next) =>
          skipToNext fuel
            { state with cursor := next, allowsKey := state.allowsKey || !state.inFlow }
      | none => { state with cursor }

def fetchDirective (state : State) : Except Error State := do
  let state ← (state.unwind (-1)).dropKey
  match Property.readDirective? state.cursor with
  | some (line, next) =>
      return { state with cursor := next, allowsKey := false }.push (.directive line)
  | none => throw .malformed

def fetchDocumentMark (token : Token) (state : State) : Except Error State := do
  let state ← (state.unwind (-1)).dropKey
  return { state with allowsKey := false }.take 3 token

def fetchFlowStart (token : Token) (state : State) : Except Error State := do
  let state ← state.noteKey
  return { state with flowLevel := state.flowLevel + 1, allowsKey := true }.take 1 token

/-- A closing bracket without an opening one belongs nowhere. -/
def fetchFlowEnd (token : Token) (state : State) : Except Error State := do
  let state ← state.dropKey
  if !state.inFlow then throw .malformed
  return { state with flowLevel := state.flowLevel - 1, allowsKey := false }.take 1 token

def fetchFlowEntry (state : State) : Except Error State := do
  let state ← { state with allowsKey := true }.dropKey
  return state.take 1 .flowEntry

def fetchBlockEntry (state : State) : Except Error State := do
  if !state.inFlow && !state.allowsKey then throw .malformed
  let state := if state.inFlow then state else state.openBlock .blockSequenceStart
  let state ← { state with allowsKey := true }.dropKey
  return state.take 1 .blockEntry

def fetchKey (state : State) : Except Error State := do
  if !state.inFlow && !state.allowsKey then throw .malformed
  let state := if state.inFlow then state else state.openBlock .blockMappingStart
  let state ← { state with allowsKey := !state.inFlow }.dropKey
  return state.take 1 .key

def fetchValue (state : State) : Except Error State := do
  match state.possibleKeys.lookup state.flowLevel with
  | some possible =>
      let state := { state with
        possibleKeys := state.possibleKeys.filter (·.1 != state.flowLevel), allowsKey := false }
      let state := state.insertAt possible.position .key
      let (opened, state) := if state.inFlow then (false, state) else state.indentTo possible.column
      let state := if opened then state.insertAt possible.position .blockMappingStart else state
      return state.take 1 .value
  | none =>
      if !state.inFlow && !state.allowsKey then throw .malformed
      let state := if state.inFlow then state else state.openBlock .blockMappingStart
      let state ← { state with allowsKey := !state.inFlow }.dropKey
      return state.take 1 .value

def fetchAnchor (token : Text → Token) (state : State) : Except Error State := do
  let state ← state.noteKey
  match Property.readAnchor? state.cursor with
  | some (name, next) => return { state with cursor := next, allowsKey := false }.push (token name)
  | none => throw .malformed

def fetchTag (state : State) : Except Error State := do
  let state ← state.noteKey
  match Property.readTag? state.cursor with
  | some (name, next) => return { state with cursor := next, allowsKey := false }.push (.tag name)
  | none => throw .malformed

def fetchBlockText (isFolded : Bool) (state : State) : Except Error State := do
  let state ← { state with allowsKey := true }.dropKey
  match BlockText.read? isFolded (max (state.indent + 1) 1).toNat state.cursor with
  | some (content, next) =>
      return { state with cursor := next }.push (.scalar (.ofText content) false)
  | none => throw .malformed

def fetchQuotedText (quote : Char) (state : State) : Except Error State := do
  let state ← state.noteKey
  let (content, next) ← QuotedText.read quote state.cursor
  return { state with cursor := next, allowsKey := false }.push (.scalar content false)

def fetchPlainText (state : State) : Except Error State := do
  let state ← state.noteKey
  let result := PlainText.read state.inFlow (state.indent + 1).toNat state.cursor
  return { state with cursor := result.cursor, allowsKey := result.crossesLine }.push
    (.scalar (.ofText result.content) true)

/-- The characters with which no plain scalar starts, unless a gap does not follow `-`, `?` or `:`.
-/
def leadingMarks : Text := "-?:,[]\x7b\x7d#&*!|>'\"%@`"

def startsPlainText (inFlow : Bool) (c : Char) (rest : Text) : Bool :=
  !(isGap c || leadingMarks.contains c) ||
    (!isGapAt rest && (c == '-' || (!inFlow && (c == '?' || c == ':'))))

/-- Adds the token that starts with `c`. -/
def fetchNext (c : Char) (rest : Text) (state : State) : Except Error State :=
  let text := c :: rest
  let atLineStart := state.cursor.column == 0
  if c = '%' ∧ atLineStart then fetchDirective state
  else if atLineStart ∧ isDocumentMark startMark text then fetchDocumentMark .documentStart state
  else if atLineStart ∧ isDocumentMark endMark text then fetchDocumentMark .documentEnd state
  else if c = '[' then fetchFlowStart .flowSequenceStart state
  else if c = '{' then fetchFlowStart .flowMappingStart state
  else if c = ']' then fetchFlowEnd .flowSequenceEnd state
  else if c = '}' then fetchFlowEnd .flowMappingEnd state
  else if c = ',' then fetchFlowEntry state
  else if c = '-' ∧ isGapAt rest then fetchBlockEntry state
  else if c = '?' ∧ (state.inFlow || isGapAt rest) then fetchKey state
  else if c = ':' ∧ (state.inFlow || isGapAt rest) then fetchValue state
  else if c = '*' then fetchAnchor .alias state
  else if c = '&' then fetchAnchor .anchor state
  else if c = '!' then fetchTag state
  else if c = '|' ∧ !state.inFlow then fetchBlockText false state
  else if c = '>' ∧ !state.inFlow then fetchBlockText true state
  else if c = '\'' ∨ c = '"' then fetchQuotedText c state
  else if startsPlainText state.inFlow c rest then fetchPlainText state
  else .error .malformed

/-- The tokens of a document, as far as they can be told. -/
structure Stream where
  tokens : List Token
  /-- What is wrong with the text behind the tokens, if they do not reach its end. -/
  fault : Option Error

/-- The tokens that later ones leave in their places. Before a possible key there may still come the
token of a key, so what is known ends there. -/
def State.settled (state : State) : List Token :=
  let positions := state.possibleKeys.map fun entry => entry.2.position
  state.tokens.take (positions.foldl min state.tokens.length)

/-- Goes to the next token and reads it; nothing is left to do at the end of the document, where the
open block collections are closed. -/
def fetch (state : State) : Except Error (State × Bool) := do
  let state ← (skipToNext (state.cursor.rest.length + 1) state).dropStaleKeys
  let state := state.unwind state.cursor.column
  match state.cursor.rest with
  | [] => return (← (state.unwind (-1)).dropKey, true)
  | c :: rest => return (← fetchNext c rest state, false)

/-- Reads tokens to the end of the document. A fault in an escape counts only once the token that
holds it is asked for, so the tokens before it are kept. -/
def scanFrom : (fuel : Nat) → State → Except Error Stream
  | 0, _ => .error .malformed
  | fuel + 1, state => do
      let state ← state.dropStaleKeys
      match fetch state with
      | .error .malformed => throw .malformed
      | .error fault => return ⟨state.settled, some fault⟩
      | .ok (state, true) => return ⟨state.tokens, none⟩
      | .ok (state, false) => scanFrom fuel state

/-- The tokens of a document. A byte order mark in front is skipped, and each token takes at least
one character. -/
def scan (text : Text) : Except Error Stream :=
  if !text.all isAllowed then .error .malformed
  else
    let start := State.start text
    let start :=
      if text.head? = some '\ufeff' then { start with cursor := start.cursor.step } else start
    scanFrom (text.length + 1) start

end Token

end Flatsheet.Yaml
