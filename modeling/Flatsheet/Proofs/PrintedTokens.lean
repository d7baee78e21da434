import Mathlib.Data.List.Chain
import Flatsheet.Proofs.Tokens

/-!
Scanning as the inverse of printing. Tokens are printed one after another, with blanks before,
between and after them or without. Every text is its own tokens printed so, and these are the tokens
that a scan gives back, as long as each statement could be one and no two of them stand side by
side.
-/

namespace Flatsheet.Token

open Text (Blank)

def isDelimiter : Token → Bool
  | .statement _ => false
  | _ => true

theorem isDelimiter_of_delimiter? {c : Char} {token : Token}
    (delimits : delimiter? c = some token) : token.isDelimiter = true := by
  unfold delimiter? at delimits
  split_ifs at delimits <;> cases delimits <;> rfl

theorem text_of_delimiter? {c : Char} {token : Token} (delimits : delimiter? c = some token) :
    token.text = [c] := by
  unfold delimiter? at delimits
  split_ifs at delimits with semicolon opening closing <;> cases delimits
  · rw [semicolon]; rfl
  · rw [opening]; rfl
  · rw [closing]; rfl

theorem exists_delimiter {token : Token} (delimits : token.isDelimiter = true) :
    ∃ c, token.text = [c] ∧ delimiter? c = some token := by
  cases token with
  | semicolon => exact ⟨';', rfl, rfl⟩
  | opening => exact ⟨'{', rfl, rfl⟩
  | closing => exact ⟨'}', rfl, rfl⟩
  | statement text => cases delimits

theorem exists_statement {token : Token} (other : token.isDelimiter = false) :
    ∃ text, token = .statement text := by
  cases token with
  | statement text => exact ⟨text, rfl⟩
  | _ => cases other

/-- One of two neighbours is a delimiter. -/
def Apart (first second : Token) : Prop := first.isDelimiter = true ∨ second.isDelimiter = true

/-- Each statement is trimmed, not empty and without delimiters, and a delimiter stands between any
two. -/
structure Proper (tokens : List Token) : Prop where
  statements : ∀ text, .statement text ∈ tokens → IsStatement text
  apart : tokens.IsChain Apart

theorem Proper.tail {token : Token} {tokens : List Token} (proper : Proper (token :: tokens)) :
    Proper tokens :=
  ⟨fun text member => proper.statements text (List.mem_cons_of_mem _ member), proper.apart.tail⟩

/-- After a statement comes a delimiter, if anything. -/
theorem Proper.next {text : Text} {tokens : List Token}
    (proper : Proper (.statement text :: tokens)) :
    ∀ token ∈ tokens.head?, token.isDelimiter = true := fun token head =>
  ((List.isChain_cons.mp proper.apart).1 token head).resolve_left (by simp [isDelimiter])

theorem statement?_eq_some {piece : Text} {token : Token} (found : statement? piece = some token) :
    token = .statement piece.trim := by
  unfold statement? at found
  split at found <;> cases found
  rfl

theorem isChain_scanFrom (piece text : Text) : (scanFrom piece text).IsChain Apart := by
  induction text generalizing piece with
  | nil =>
      rw [scanFrom]
      cases statement? piece with
      | none => exact .nil
      | some token => exact .singleton token
  | cons c text ih =>
      rw [scanFrom]
      split
      next token delimits =>
          have other := isDelimiter_of_delimiter? delimits
          have later : (token :: scanFrom [] text).IsChain Apart :=
            List.isChain_cons.mpr ⟨fun _ _ => .inl other, ih []⟩
          cases statement? piece with
          | none => exact later
          | some statement => exact .cons_cons (.inr other) later
      next => exact ih _

theorem proper_scan (text : Text) : Proper (scan text) :=
  ⟨fun _ => isStatement_of_mem_scan, isChain_scanFrom [] text⟩

theorem filter_statement? (piece : Text) :
    (statement? piece).toList.filter (·.isDelimiter) = [] := by
  cases found : statement? piece with
  | none => rfl
  | some token =>
      rw [statement?_eq_some found]
      rfl

theorem filter_scanFrom (piece text : Text) :
    (scanFrom piece text).filter (·.isDelimiter) = text.filterMap delimiter? := by
  induction text generalizing piece with
  | nil => exact filter_statement? piece
  | cons c text ih =>
      rw [scanFrom]
      split
      next token delimits =>
          rw [List.filter_append, filter_statement?, List.nil_append,
            List.filter_cons_of_pos (by simp [isDelimiter_of_delimiter? delimits]), ih,
            List.filterMap_cons_some delimits]
      next inside => rw [ih, List.filterMap_cons_none inside]

/-- Tokens, each after the blanks that stand before it, and the blanks after the last one. -/
structure Print where
  parts : List (Text × Token)
  last : Text
  blank : ∀ part ∈ parts, Blank part.1
  lastBlank : Blank last

namespace Print

def tokens (print : Print) : List Token := print.parts.map Prod.snd

def text (print : Print) : Text :=
  print.parts.flatMap (fun part => part.1 ++ part.2.text) ++ print.last

/-- Two prints with a token between them, which comes after the last blanks of the first. -/
def follow (first : Print) (token : Token) (second : Print) : Print where
  parts := first.parts ++ (first.last, token) :: second.parts
  last := second.last
  blank part member := by
    rcases List.mem_append.mp member with early | late
    · exact first.blank part early
    · rcases List.mem_cons.mp late with rfl | later
      · exact first.lastBlank
      · exact second.blank part later
  lastBlank := second.lastBlank

theorem text_follow (first : Print) (token : Token) (second : Print) :
    (first.follow token second).text = first.text ++ (token.text ++ second.text) := by
  simp [text, follow]

theorem tokens_follow (first : Print) (token : Token) (second : Print) :
    (first.follow token second).tokens = first.tokens ++ token :: second.tokens := by
  simp [tokens, follow]

/-- A piece between delimiters is blank, or it is its statement between blanks. -/
theorem exists_piece (piece : Text) :
    ∃ print : Print, print.text = piece ∧ print.tokens = (statement? piece).toList := by
  obtain ⟨before, after, leading, trailing, whole⟩ := Text.trim_split piece
  have split : before ++ (piece.trim ++ after) = piece := whole.symm
  unfold statement?
  split
  next empty =>
      rw [empty, List.nil_append] at split
      exact ⟨⟨[], piece, by simp, split ▸ leading.append trailing⟩, rfl, rfl⟩
  next =>
      refine ⟨⟨[(before, .statement piece.trim)], after, by simpa using leading, trailing⟩, ?_, rfl⟩
      simpa [text, Token.text] using split

/-- What has been read since the last delimiter and what is still to be read print the tokens. -/
theorem exists_scanFrom (piece text : Text) :
    ∃ print : Print, print.text = piece ++ text ∧ print.tokens = scanFrom piece text := by
  induction text generalizing piece with
  | nil =>
      rw [List.append_nil]
      exact exists_piece piece
  | cons c text ih =>
      rw [scanFrom]
      split
      next token delimits =>
          obtain ⟨first, read, statement⟩ := exists_piece piece
          obtain ⟨second, rest, scanned⟩ := ih []
          refine ⟨first.follow token second, ?_, ?_⟩
          · rw [text_follow, read, text_of_delimiter? delimits, rest]
            rfl
          · rw [tokens_follow, statement, scanned]
      next =>
          obtain ⟨print, read, scanned⟩ := ih (piece ++ [c])
          exact ⟨print, by rw [read, List.append_assoc]; rfl, scanned⟩

end Print

/-- A piece that goes on with blanks holds the statement that it held. -/
theorem statement?_append_blank (piece : Text) {blanks : Text} (blank : Blank blanks) :
    statement? (piece ++ blanks) = statement? piece := by
  have same : (piece ++ blanks).trim = piece.trim := Text.trim_pad .nil blank
  rw [statement?, statement?, same]

/-- Scanning goes on in the middle of a print. A statement in the piece read so far is a token of
its own if no statement comes next, and the induction needs a blank piece otherwise. -/
theorem scanFrom_printed {parts : List (Text × Token)} {last : Text}
    (blank : ∀ part ∈ parts, Blank part.1) (lastBlank : Blank last)
    (proper : Proper (parts.map Prod.snd)) {piece : Text} (free : Undelimited piece)
    (next : Blank piece ∨ ∀ token ∈ (parts.map Prod.snd).head?, token.isDelimiter = true) :
    scanFrom piece (parts.flatMap (fun part => part.1 ++ part.2.text) ++ last) =
      (statement? piece).toList ++ parts.map Prod.snd := by
  induction parts generalizing piece with
  | nil =>
      have read := scanFrom_undelimited (.of_blank lastBlank) piece []
      rw [List.append_nil] at read
      rw [List.flatMap_nil, List.nil_append, read, scanFrom,
        statement?_append_blank piece lastBlank, List.map_nil, List.append_nil]
  | cons part parts ih =>
      obtain ⟨before, token⟩ := part
      obtain ⟨leading, blanks⟩ := List.forall_mem_cons.mp blank
      have split : ((before, token) :: parts).flatMap (fun part => part.1 ++ part.2.text) ++ last =
          before ++ (token.text ++
            (parts.flatMap (fun part => part.1 ++ part.2.text) ++ last)) := by
        simp
      rw [split, scanFrom_undelimited (.of_blank leading)]
      cases delimits : token.isDelimiter with
      | true =>
          obtain ⟨c, mark, delimits⟩ := exists_delimiter delimits
          rw [mark, List.singleton_append, scanFrom, delimits]
          simp only [statement?_append_blank piece leading]
          rw [ih blanks proper.tail (show Undelimited [] by simp [Undelimited]) (.inl .nil)]
          rfl
      | false =>
          obtain ⟨text, rfl⟩ := exists_statement delimits
          have spaced : Blank piece := by
            refine next.resolve_right fun other => ?_
            simpa [isDelimiter] using other (.statement text) rfl
          have statement := proper.statements text (by simp)
          have held := statement?_pad (spaced.append leading) statement .nil
          rw [List.append_nil] at held
          rw [Token.text, scanFrom_undelimited statement.undelimited,
            ih blanks proper.tail ((free.append (.of_blank leading)).append statement.undelimited)
              (.inr proper.next), held, statement?_of_blank spaced]
          rfl

/-- Scanning inverts printing. The tokens of a text are proper, have the delimiters of the text in
order and print the text; and a print gives its tokens back exactly if they are proper. -/
theorem scan_inverts_printing :
    (∀ text, Proper (scan text) ∧
      (scan text).filter (·.isDelimiter) = text.filterMap delimiter? ∧
      ∃ print : Print, print.text = text ∧ print.tokens = scan text) ∧
    ∀ print : Print, scan print.text = print.tokens ↔ Proper print.tokens := by
  refine ⟨fun text =>
    ⟨proper_scan text, filter_scanFrom [] text, Print.exists_scanFrom [] text⟩, ?_⟩
  intro print
  constructor
  · intro scanned
    exact scanned ▸ proper_scan print.text
  · intro proper
    exact scanFrom_printed print.blank print.lastBlank proper (by simp [Undelimited]) (.inl .nil)

/-- The ideographic space is a blank, and the zero-width space is not. -/
example : scan "\u3000a  b\n;\u200b\x7b;c\x7d ".toList =
    [.statement "a  b".toList, .semicolon, .statement "\u200b".toList, .opening, .semicolon,
      .statement "c".toList, .closing] := by
  decide

end Flatsheet.Token
