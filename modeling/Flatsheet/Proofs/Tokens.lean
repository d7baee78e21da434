import Flatsheet.Proofs.Words
import Flatsheet.Sheet.Token

/-!
Scanning piece by piece. Up to its first delimiter a text holds one statement or none, and what
follows that delimiter is scanned as if it stood alone.
-/

namespace Flatsheet

namespace Token

def Undelimited (text : Text) : Prop := ∀ c ∈ text, c ≠ ';' ∧ c ≠ '{' ∧ c ≠ '}'

instance (text : Text) : Decidable (Undelimited text) := List.decidableBAll _ text

/-- What one statement can be. -/
structure IsStatement (text : Text) : Prop where
  nonempty : text ≠ []
  trimmed : text.trim = text
  undelimited : Undelimited text

instance (text : Text) : Decidable (IsStatement text) :=
  decidable_of_iff (text ≠ [] ∧ text.trim = text ∧ Undelimited text)
    ⟨fun ⟨nonempty, trimmed, undelimited⟩ => ⟨nonempty, trimmed, undelimited⟩,
      fun ⟨nonempty, trimmed, undelimited⟩ => ⟨nonempty, trimmed, undelimited⟩⟩

theorem delimiter?_semicolon : delimiter? ';' = some .semicolon := rfl

theorem delimiter?_opening : delimiter? '{' = some .opening := rfl

theorem delimiter?_closing : delimiter? '}' = some .closing := rfl

theorem delimiter?_eq_none {c : Char} : delimiter? c = none ↔ c ≠ ';' ∧ c ≠ '{' ∧ c ≠ '}' := by
  unfold delimiter?
  split_ifs <;> simp_all

theorem Undelimited.of_blank {text : Text} (blank : Text.Blank text) : Undelimited text := by
  intro c member
  have isBlank := blank c member
  refine ⟨?_, ?_, ?_⟩ <;> rintro rfl <;> exact absurd isBlank (by decide)

theorem Undelimited.append {front rest : Text} (first : Undelimited front)
    (second : Undelimited rest) : Undelimited (front ++ rest) := fun c member =>
  (List.mem_append.mp member).elim (first c) (second c)

theorem statement?_of_blank {piece : Text} (blank : Text.Blank piece) :
    statement? piece = none := by
  rw [statement?, Text.trim_of_blank blank]

theorem statement?_pad {before statement after : Text} (leading : Text.Blank before)
    (proper : IsStatement statement) (trailing : Text.Blank after) :
    statement? (before ++ (statement ++ after)) = some (.statement statement) := by
  rw [statement?, Text.trim_pad leading trailing, proper.trimmed]
  cases statement with
  | nil => exact absurd rfl proper.nonempty
  | cons c text => rfl

theorem isStatement_of_statement? {piece statement : Text} (free : Undelimited piece)
    (found : statement? piece = some (.statement statement)) : IsStatement statement := by
  unfold statement? at found
  split at found
  · contradiction
  next nonempty =>
      obtain rfl : piece.trim = statement := by simpa using found
      exact ⟨nonempty, (Text.trimmed_trim piece).trim_eq,
        fun c member => free c (Text.mem_of_mem_trim member)⟩

theorem scanFrom_undelimited {text : Text} (free : Undelimited text) (piece rest : Text) :
    scanFrom piece (text ++ rest) = scanFrom (piece ++ text) rest := by
  induction text generalizing piece with
  | nil => simp
  | cons c text ih =>
      obtain ⟨first, later⟩ := List.forall_mem_cons.mp free
      rw [List.cons_append, scanFrom, delimiter?_eq_none.mpr first]
      simpa using ih later (piece ++ [c])

theorem scan_piece {piece : Text} {c : Char} {token : Token} (free : Undelimited piece)
    (delimits : delimiter? c = some token) (rest : Text) :
    scan (piece ++ c :: rest) = (statement? piece).toList ++ token :: scan rest := by
  rw [scan, scanFrom_undelimited free, List.nil_append, scanFrom, delimits]
  rfl

theorem scan_blank {text : Text} (blank : Text.Blank text) : scan text = [] := by
  have whole := scanFrom_undelimited (Undelimited.of_blank blank) [] []
  rw [List.append_nil, List.nil_append] at whole
  rw [scan, whole, scanFrom, statement?_of_blank blank]
  rfl

theorem scan_cons {c : Char} {token : Token} (delimits : delimiter? c = some token) (rest : Text) :
    scan (c :: rest) = token :: scan rest := by
  rw [scan, scanFrom, delimits]
  rfl

theorem scan_delimiter {before rest : Text} {c : Char} {token : Token} (leading : Text.Blank before)
    (delimits : delimiter? c = some token) : scan (before ++ c :: rest) = token :: scan rest := by
  rw [scan_piece (.of_blank leading) delimits, statement?_of_blank leading]
  rfl

theorem scan_statement {before statement after rest : Text} {c : Char} {token : Token}
    (leading : Text.Blank before) (proper : IsStatement statement) (trailing : Text.Blank after)
    (delimits : delimiter? c = some token) :
    scan (before ++ (statement ++ (after ++ c :: rest))) =
      .statement statement :: token :: scan rest := by
  have free : Undelimited (before ++ (statement ++ after)) :=
    (Undelimited.of_blank leading).append (proper.undelimited.append (.of_blank trailing))
  have scanned := scan_piece free delimits rest
  rw [statement?_pad leading proper trailing] at scanned
  simpa using scanned

theorem isStatement_of_mem_scanFrom {piece text statement : Text} (free : Undelimited piece)
    (scanned : .statement statement ∈ scanFrom piece text) : IsStatement statement := by
  induction text generalizing piece with
  | nil =>
      have found : statement? piece = some (.statement statement) := by
        simpa [scanFrom] using scanned
      exact isStatement_of_statement? free found
  | cons c text ih =>
      rw [scanFrom] at scanned
      split at scanned
      next token delimits =>
          rcases List.mem_append.mp scanned with early | later
          · exact isStatement_of_statement? free (by simpa using early)
          · rcases List.mem_cons.mp later with same | later
            · unfold delimiter? at delimits
              split_ifs at delimits <;> simp [← same] at delimits
            · exact @ih [] (by simp [Undelimited]) later
      next inside =>
          have char : Undelimited [c] := by simpa [Undelimited] using delimiter?_eq_none.mp inside
          exact ih (free.append char) scanned

theorem isStatement_of_mem_scan {text statement : Text}
    (scanned : .statement statement ∈ scan text) : IsStatement statement :=
  isStatement_of_mem_scanFrom (by simp [Undelimited]) scanned

end Token

end Flatsheet
