import Mathlib.Data.List.Infix
import Flatsheet.Proofs.Tokens
import Flatsheet.Sheet.Item

/-!
Blocks of items, written out and read back. Whatever blanks stand between its pieces, a written
block scans to the tokens of its items, and reading these tokens gives the items again. For other
tokens reading is followed by what they start: a declaration, or a block with its heading. Reading
keeps these starts, in their order, up to the closer that has no opener.
-/

namespace Flatsheet.Item

/-- Induction along a block and into the blocks that it holds. -/
theorem block_induction {motive : List Item → Prop} (nil : motive [])
    (declaration : ∀ statement items, motive items → motive (.declaration statement :: items))
    (block : ∀ heading inside items, motive inside → motive items →
      motive (.block heading inside :: items)) : (items : List Item) → motive items
  | [] => nil
  | .declaration statement :: items =>
      declaration statement items (block_induction nil declaration block items)
  | .block heading inside :: items =>
      block heading inside items (block_induction nil declaration block inside)
        (block_induction nil declaration block items)

/-- The ways to write a block: every statement ends with a semicolon, every block stands between
braces after its heading if it has one, and blanks may stand before each of these pieces. -/
inductive Written : List Item → Text → Prop
  | nil {blanks : Text} (blank : Text.Blank blanks) : Written [] blanks
  | declaration {before statement after rest : Text} {items : List Item}
      (leading : Text.Blank before) (proper : Token.IsStatement statement)
      (trailing : Text.Blank after) (more : Written items rest) :
      Written (.declaration statement :: items) (before ++ (statement ++ (after ++ ';' :: rest)))
  | block {before heading after text rest : Text} {inside items : List Item}
      (leading : Text.Blank before) (proper : Token.IsStatement heading)
      (trailing : Text.Blank after) (nested : Written inside text) (more : Written items rest) :
      Written (.block (some heading) inside :: items)
        (before ++ (heading ++ (after ++ '{' :: (text ++ '}' :: rest))))
  | anonymous {before text rest : Text} {inside items : List Item} (leading : Text.Blank before)
      (nested : Written inside text) (more : Written items rest) :
      Written (.block none inside :: items) (before ++ '{' :: (text ++ '}' :: rest))

namespace Written

theorem pad {items : List Item} {blanks text : Text} (blank : Text.Blank blanks)
    (written : Written items text) : Written items (blanks ++ text) := by
  cases written with
  | nil inner => exact .nil (blank.append inner)
  | declaration leading proper trailing more =>
      rw [← List.append_assoc]
      exact .declaration (blank.append leading) proper trailing more
  | block leading proper trailing nested more =>
      rw [← List.append_assoc]
      exact .block (blank.append leading) proper trailing nested more
  | anonymous leading nested more =>
      rw [← List.append_assoc]
      exact .anonymous (blank.append leading) nested more

theorem append {items more : List Item} {text rest : Text} (first : Written items text)
    (second : Written more rest) : Written (items ++ more) (text ++ rest) := by
  induction first with
  | nil blank => exact second.pad blank
  | declaration leading proper trailing _ ih =>
      simpa using Written.declaration leading proper trailing ih
  | block leading proper trailing nested _ _ ih =>
      simpa using Written.block leading proper trailing nested ih
  | anonymous leading nested _ _ ih => simpa using Written.anonymous leading nested ih

end Written

mutual

def tokens : Item → List Token
  | .declaration statement => [.statement statement, .semicolon]
  | .block heading items =>
      (heading.map .statement).toList ++ .opening :: (tokensAll items ++ [.closing])

def tokensAll : List Item → List Token
  | [] => []
  | item :: items => tokens item ++ tokensAll items

end

/-- What may follow a written block: nothing, or a delimiter. -/
def Follows (rest : Text) : Prop := ∀ c ∈ rest.head?, Token.delimiter? c ≠ none

theorem follows_closing (rest : Text) : Follows ('}' :: rest) := by
  simp [Follows, Token.delimiter?_closing]

theorem scan_blank_append {blanks rest : Text} (blank : Text.Blank blanks)
    (follows : Follows rest) : Token.scan (blanks ++ rest) = Token.scan rest := by
  cases rest with
  | nil => rw [List.append_nil, Token.scan_blank blank]; rfl
  | cons c rest =>
      obtain ⟨token, delimits⟩ := Option.ne_none_iff_exists'.mp (follows c rfl)
      rw [Token.scan_delimiter blank delimits, Token.scan_cons delimits]

theorem scan_written {items : List Item} {text rest : Text} (written : Written items text)
    (follows : Follows rest) : Token.scan (text ++ rest) = tokensAll items ++ Token.scan rest := by
  induction written generalizing rest with
  | nil blank => exact scan_blank_append blank follows
  | declaration leading proper trailing _ ih =>
      simp only [List.append_assoc, List.cons_append]
      rw [Token.scan_statement leading proper trailing Token.delimiter?_semicolon, ih follows]
      simp [tokensAll, tokens]
  | block leading proper trailing _ _ inner outer =>
      simp only [List.append_assoc, List.cons_append]
      rw [Token.scan_statement leading proper trailing Token.delimiter?_opening,
        inner (follows_closing _), Token.scan_cons Token.delimiter?_closing, outer follows]
      simp [tokensAll, tokens]
  | anonymous leading _ _ inner outer =>
      simp only [List.append_assoc, List.cons_append]
      rw [Token.scan_delimiter leading Token.delimiter?_opening, inner (follows_closing _),
        Token.scan_cons Token.delimiter?_closing, outer follows]
      simp [tokensAll, tokens]

/-- Tokens of whole items are read as these items, inside any open blocks. -/
theorem readFrom_tokensAll (items : List Item) (frames : List Frame) (before : List Item)
    (rest : List Token) :
    readFrom frames before (tokensAll items ++ rest) = readFrom frames (before ++ items) rest := by
  induction items using block_induction generalizing frames before rest with
  | nil => simp [tokensAll]
  | declaration statement items ih =>
      simp [tokensAll, tokens, readFrom, ih]
  | block heading inside items inner outer =>
      cases heading with
      | none => simp [tokensAll, tokens, readFrom, inner, outer]
      | some heading => simp [tokensAll, tokens, readFrom, inner, outer]

theorem read_scan_written {items : List Item} {text : Text} (written : Written items text) :
    read (Token.scan text) = (items, []) := by
  have nothing : Follows [] := by simp [Follows]
  have scanned := scan_written written nothing
  rw [List.append_nil, show Token.scan [] = [] from rfl] at scanned
  rw [read, scanned, readFrom_tokensAll, List.nil_append, readFrom, closeAll]

inductive Entry where
  | declaration (statement : Text)
  | block (heading : Option Text)

namespace Entry

def declared? : Entry → Option Text
  | .declaration statement => some statement
  | .block _ => none

def isBlock : Entry → Bool
  | .declaration _ => false
  | .block _ => true

def texts : Entry → List Text
  | .declaration statement => [statement]
  | .block heading => heading.toList

end Entry

mutual

def entries : Item → List Entry
  | .declaration statement => [.declaration statement]
  | .block heading items => .block heading :: entriesAll items

def entriesAll : List Item → List Entry
  | [] => []
  | item :: items => entries item ++ entriesAll items

end

@[simp] theorem entriesAll_nil : entriesAll [] = [] := rfl

@[simp] theorem entriesAll_declaration (statement : Text) (items : List Item) :
    entriesAll (.declaration statement :: items) = .declaration statement :: entriesAll items := rfl

@[simp] theorem entriesAll_block (heading : Option Text) (inside items : List Item) :
    entriesAll (.block heading inside :: items) =
      .block heading :: (entriesAll inside ++ entriesAll items) := rfl

theorem entriesAll_append (items more : List Item) :
    entriesAll (items ++ more) = entriesAll items ++ entriesAll more := by
  induction items with
  | nil => rfl
  | cons item items ih => simp [entriesAll, ih]

theorem entriesAll_closeAll (frames : List Frame) (items more : List Item) :
    entriesAll (closeAll frames (items ++ more)) =
      entriesAll (closeAll frames items) ++ entriesAll more := by
  have outside : ∃ before, ∀ items, entriesAll (closeAll frames items) =
      before ++ entriesAll items := by
    induction frames with
    | nil => exact ⟨[], fun _ => rfl⟩
    | cons frame frames ih =>
        obtain ⟨heading, held⟩ := frame
        obtain ⟨before, split⟩ := ih
        refine ⟨before ++ entriesAll held ++ [.block heading], fun items => ?_⟩
        rw [closeAll, split, entriesAll_append]
        simp
  obtain ⟨before, split⟩ := outside
  rw [split, split, entriesAll_append, List.append_assoc]

/-- What each token starts; nothing for a delimiter that is no opener, and for the heading of a
block. -/
def Entry.ofTokens : List Token → List Entry
  | [] => []
  | .opening :: tokens => .block none :: ofTokens tokens
  | .statement heading :: .opening :: tokens => .block (some heading) :: ofTokens tokens
  | .statement statement :: tokens => .declaration statement :: ofTokens tokens
  | _ :: tokens => ofTokens tokens

/-- Whether closers outnumber openers, of which `depth` have come before. -/
def surplus (depth : Nat) (tokens : List Token) : Bool :=
  depth + tokens.count .opening < tokens.count .closing

/-- The tokens up to the first closer at which closers outnumber openers, or all of them if there
is no such closer. -/
def consumedFrom (depth : Nat) (tokens : List Token) : List Token :=
  (tokens.inits.find? (surplus depth)).getD tokens

theorem consumedFrom_cons {depth next : Nat} {token : Token} {tokens : List Token}
    (moves : ∀ front, surplus depth (token :: front) = surplus next front) :
    consumedFrom depth (token :: tokens) = token :: consumedFrom next tokens := by
  have empty : surplus depth [] = false := by simp [surplus]
  have shifted : surplus depth ∘ (fun front => token :: front) = surplus next := funext moves
  rw [consumedFrom, List.inits_cons, List.find?_cons_of_neg (by simp [empty]), List.find?_map,
    shifted, consumedFrom]
  cases tokens.inits.find? (surplus next) with
  | none => rfl
  | some front => rfl

theorem consumedFrom_statement (depth : Nat) (text : Text) (tokens : List Token) :
    consumedFrom depth (.statement text :: tokens) = .statement text :: consumedFrom depth tokens :=
  consumedFrom_cons fun front => by simp [surplus]

theorem consumedFrom_semicolon (depth : Nat) (tokens : List Token) :
    consumedFrom depth (.semicolon :: tokens) = .semicolon :: consumedFrom depth tokens :=
  consumedFrom_cons fun front => by simp [surplus]

theorem consumedFrom_opening (depth : Nat) (tokens : List Token) :
    consumedFrom depth (.opening :: tokens) = .opening :: consumedFrom (depth + 1) tokens :=
  consumedFrom_cons fun front => by simp [surplus]; omega

theorem consumedFrom_closing (depth : Nat) (tokens : List Token) :
    consumedFrom (depth + 1) (.closing :: tokens) = .closing :: consumedFrom depth tokens :=
  consumedFrom_cons fun front => by simp [surplus]; omega

theorem consumedFrom_surplus (tokens : List Token) :
    consumedFrom 0 (.closing :: tokens) = [.closing] := by
  cases tokens with
  | nil => rfl
  | cons token tokens => simp [consumedFrom, surplus]

theorem readFrom_entries (frames : List Frame) (items : List Item) (tokens : List Token) :
    consumedFrom frames.length tokens ++ (readFrom frames items tokens).2 = tokens ∧
      entriesAll (readFrom frames items tokens).1 = entriesAll (closeAll frames items) ++
        Entry.ofTokens (consumedFrom frames.length tokens) := by
  fun_induction readFrom frames items tokens with
  | case1 frames items => simp [consumedFrom, surplus, Entry.ofTokens]
  | case2 items tokens => simp [consumedFrom_surplus, closeAll, Entry.ofTokens]
  | case3 heading before frames items tokens ih =>
      simpa [consumedFrom_closing, closeAll, Entry.ofTokens] using ih
  | case4 frames items tokens ih =>
      simpa [consumedFrom_semicolon, Entry.ofTokens] using ih
  | case5 frames items tokens ih =>
      simpa [consumedFrom_opening, Entry.ofTokens, closeAll, entriesAll_closeAll] using ih
  | case6 frames items text tokens ih =>
      simpa [consumedFrom_statement, consumedFrom_opening, Entry.ofTokens, closeAll,
        entriesAll_closeAll] using ih
  | case7 frames items text tokens unopened ih =>
      obtain ⟨kept, started⟩ := ih
      have plain : ∀ rest, consumedFrom frames.length tokens ≠ .opening :: rest := by
        intro rest opens
        rw [opens] at kept
        exact unopened _ kept.symm
      rw [consumedFrom_statement, started, entriesAll_closeAll, Entry.ofTokens]
      · exact ⟨by simp [kept], by simp⟩
      · exact plain

theorem read_entries (tokens : List Token) :
    consumedFrom 0 tokens ++ (read tokens).2 = tokens ∧
      entriesAll (read tokens).1 = Entry.ofTokens (consumedFrom 0 tokens) :=
  readFrom_entries [] [] tokens

theorem Entry.statement_of_mem_texts {tokens : List Token} {entry : Entry} {text : Text}
    (started : entry ∈ ofTokens tokens) (held : text ∈ entry.texts) : .statement text ∈ tokens := by
  fun_induction ofTokens tokens with
  | case1 => cases started
  | case2 tokens ih =>
      rcases List.mem_cons.mp started with rfl | later
      · cases held
      · exact List.mem_cons_of_mem _ (ih later)
  | case3 heading tokens ih =>
      rcases List.mem_cons.mp started with rfl | later
      · obtain rfl : text = heading := by simpa [texts] using held
        simp
      · exact List.mem_cons_of_mem _ (List.mem_cons_of_mem _ (ih later))
  | case4 statement tokens _ ih =>
      rcases List.mem_cons.mp started with rfl | later
      · obtain rfl : text = statement := by simpa [texts] using held
        simp
      · exact List.mem_cons_of_mem _ (ih later)
  | case5 token tokens _ _ _ ih => exact List.mem_cons_of_mem _ (ih started)

/-- Every text of the items read is one of the statements. -/
theorem statement_of_mem_read {tokens : List Token} {entry : Entry} {text : Text}
    (listed : entry ∈ entriesAll (read tokens).1) (held : text ∈ entry.texts) :
    .statement text ∈ tokens := by
  obtain ⟨split, started⟩ := read_entries tokens
  rw [started] at listed
  rw [← split]
  exact List.mem_append_left _ (Entry.statement_of_mem_texts listed held)

end Flatsheet.Item
