import Flatsheet.Proofs.Vault

/-!
What a literal is. It is meant to be a quoted run on one line, which ends with the first closing
quote that no backslash escapes. Two kinds of literals are more than that: the closing quote may be
the first character of the next line, and after two quotes in a row the literal goes on to a third
one on the line. All other literals are such runs.
-/

namespace Flatsheet.Vault

/-- Each of these quotes in the text comes directly after a backslash. -/
def Escaped (quote : Char) (inside : Text) : Prop :=
  ∀ before after, inside = before ++ quote :: after → before.getLast? = some '\\'

/-- A quote, a text without line feeds and with that quote escaped, and the quote again, which no
backslash escapes. -/
def QuotedRun (literal : Text) : Prop :=
  ∃ quote inside, quote ∈ quotes ∧ literal = quote :: (inside ++ [quote]) ∧ '\n' ∉ inside ∧
    Escaped quote inside ∧ inside.getLast? ≠ some '\\'

theorem Enclosed.tail {quote x y : Char} {inside : Text}
    (enclosed : Enclosed quote (x :: y :: inside)) : Enclosed quote (y :: inside) := by
  refine ⟨fun member => enclosed.line (by simp [member]), fun before after split => ?_,
    by simpa using enclosed.closed⟩
  cases before with
  | nil => exact .inl rfl
  | cons c before =>
      refine .inr ?_
      simpa using enclosed.escaped (x :: c :: before) after (by rw [split]; rfl)

theorem afterClosing?_enclosed {quote c : Char} {inside : Text}
    (enclosed : Enclosed quote (c :: inside)) (rest : Text) :
    afterClosing? quote (c :: (inside ++ quote :: rest)) = some rest := by
  induction inside generalizing c with
  | nil =>
      have closes : c ≠ '\\' := by simpa using enclosed.closed
      simp [afterClosing?, closes]
  | cons d inside ih =>
      have goesOn : ¬ (c ≠ '\\' ∧ d = quote) := by
        rintro ⟨unescaped, rfl⟩
        simpa [unescaped] using enclosed.escaped [c] inside rfl
      have sameLine : c ≠ '\n' := by
        rintro rfl
        exact enclosed.line (by simp)
      rw [List.cons_append, afterClosing?, if_neg goesOn, if_neg sameLine]
      exact ih enclosed.tail

theorem Enclosed.not_mem_line {quote : Char} {inside : Text} (enclosed : Enclosed quote inside)
    (last : inside.getLast? ≠ some '\n') : '\n' ∉ inside := by
  intro member
  obtain ⟨front, c, rfl⟩ := (List.eq_nil_or_concat' inside).resolve_left
    (List.ne_nil_of_mem member)
  rcases List.mem_append.mp member with early | late
  · exact enclosed.line (by simpa using early)
  · exact last (by simpa using (List.mem_singleton.mp late).symm)

theorem quotedRun_iff {quote : Char} {inside : Text} :
    QuotedRun (quote :: (inside ++ [quote])) ↔
      quote ∈ quotes ∧ '\n' ∉ inside ∧ Escaped quote inside ∧ inside.getLast? ≠ some '\\' := by
  constructor
  · rintro ⟨other, text, listed, same, run⟩
    obtain ⟨rfl, same⟩ := List.cons.inj same
    obtain rfl := List.append_cancel_right same
    exact ⟨listed, run⟩
  · rintro ⟨listed, run⟩
    exact ⟨quote, inside, listed, rfl, run⟩

theorem Enclosed.of_run {quote : Char} {inside : Text}
    (run : '\n' ∉ inside ∧ Escaped quote inside ∧ inside.getLast? ≠ some '\\') :
    Enclosed quote inside :=
  ⟨fun member => run.1 (List.mem_of_mem_dropLast member),
    fun before after split => .inr (run.2.1 before after split), run.2.2⟩

/-- A literal is a run unless it starts with two quotes or its closing quote starts a line. -/
theorem Enclosed.quotedRun_iff {quote : Char} {inside : Text} (enclosed : Enclosed quote inside)
    (listed : quote ∈ quotes) :
    QuotedRun (quote :: (inside ++ [quote])) ↔
      inside.head? ≠ some quote ∧ inside.getLast? ≠ some '\n' := by
  rw [Vault.quotedRun_iff]
  constructor
  · rintro ⟨_, line, escaped, _⟩
    refine ⟨fun first => ?_, fun last => line (List.mem_of_getLast? last)⟩
    obtain ⟨after, split⟩ := List.head?_eq_some_iff.mp first
    have backslash := escaped [] after split
    cases backslash
  · rintro ⟨first, last⟩
    refine ⟨listed, enclosed.not_mem_line last, fun before after split => ?_, enclosed.closed⟩
    refine (enclosed.escaped before after split).resolve_left ?_
    rintro rfl
    exact first (by simp [split])

theorem mem_literalsOf {pieces : List (Piece Unit)} {literal : Text} :
    literal ∈ literalsOf pieces ↔ .hit () literal ∈ pieces := by
  induction pieces with
  | nil => simp [literalsOf]
  | cons piece pieces ih =>
      cases piece with
      | char c => simpa [literalsOf] using ih
      | hit value source => simp [literalsOf, ih]

theorem split_of_mem_literals {text literal : Text}
    (member : literal ∈ literalsOf (literal?.cut text)) :
    ∃ quote inside before rest, quote ∈ quotes ∧ literal = quote :: (inside ++ [quote]) ∧
      Enclosed quote inside ∧ text = before ++ quote :: (inside ++ quote :: rest) := by
  obtain ⟨before, rest, split, found⟩ :=
    Pattern.split_of_mem_cut literal?_proper (mem_literalsOf.mp member)
  obtain ⟨quote, inside, listed, shape, enclosed⟩ := literal?_eq_some found
  have written : literal = quote :: (inside ++ [quote]) :=
    List.append_cancel_right (shape.trans (by simp))
  exact ⟨quote, inside, before, rest, listed, written, enclosed, by rw [split, shape]⟩

/-- No quote comes directly after a line feed, and no third one on the line after two in a row. -/
def Tidy (text : Text) : Prop :=
  ∀ tail ∈ text.tails, ∀ quote ∈ quotes, tail.take 2 ≠ ['\n', quote] ∧
    (tail.take 2 = [quote, quote] → quote ∉ (tail.drop 2).takeWhile (· ≠ '\n'))

instance (text : Text) : Decidable (Tidy text) :=
  @List.decidableBAll _ _ (fun _ => List.decidableBAll _ quotes) text.tails

theorem Tidy.getLast?_ne {quote : Char} {before inside rest : Text}
    (tidy : Tidy (before ++ quote :: (inside ++ quote :: rest))) (listed : quote ∈ quotes) :
    inside.getLast? ≠ some '\n' := by
  intro ended
  obtain ⟨front, rfl⟩ := List.getLast?_eq_some_iff.mp ended
  have suffix : '\n' :: quote :: rest <:+
      before ++ quote :: (front ++ ['\n'] ++ quote :: rest) :=
    ⟨before ++ quote :: front, by simp⟩
  exact (tidy _ ((List.mem_tails _ _).mpr suffix) quote listed).1 rfl

theorem Tidy.quotedRun {quote : Char} {before inside rest : Text}
    (tidy : Tidy (before ++ quote :: (inside ++ quote :: rest))) (listed : quote ∈ quotes)
    (enclosed : Enclosed quote inside) : QuotedRun (quote :: (inside ++ [quote])) := by
  have last : inside.getLast? ≠ some '\n' := tidy.getLast?_ne listed
  refine (enclosed.quotedRun_iff listed).mpr ⟨fun first => ?_, last⟩
  obtain ⟨more, rfl⟩ := List.head?_eq_some_iff.mp first
  have third := (tidy (quote :: quote :: (more ++ quote :: rest))
    ((List.mem_tails _ _).mpr ⟨before, rfl⟩) quote listed).2 rfl
  have line : ∀ c ∈ more, decide (c ≠ '\n') = true := by
    rintro c member
    refine decide_eq_true ?_
    rintro rfl
    exact enclosed.not_mem_line last (by simp [member])
  have ends : quote ≠ '\n' := by
    rcases List.mem_pair.mp listed with rfl | rfl <;> decide
  refine third ?_
  change quote ∈ (more ++ quote :: rest).takeWhile (· ≠ '\n')
  rw [List.takeWhile_append_of_pos line]
  simp [ends]

theorem Tidy.literal?_run {quote : Char} {before inside rest : Text}
    (tidy : Tidy (before ++ quote :: (inside ++ quote :: rest))) (listed : quote ∈ quotes)
    (enclosed : Enclosed quote inside) :
    literal? (quote :: (inside ++ quote :: rest)) = some ((), rest) := by
  have quoted : quote = '"' ∨ quote = '\'' := List.mem_pair.mp listed
  cases inside with
  | nil =>
      cases found : afterClosing? quote (quote :: rest) with
      | none => simp [literal?, quoted, found, Text.dropPrefix?]
      | some later =>
          obtain ⟨c, more, split, longer⟩ := afterClosing?_eq_some found
          obtain ⟨rfl, rfl⟩ := List.cons.inj split
          have tidy : Tidy (before ++ quote :: (quote :: more ++ quote :: later)) := tidy
          have run := tidy.quotedRun listed longer
          exact absurd rfl ((longer.quotedRun_iff listed).mp run).1
  | cons c inside =>
      have closed := afterClosing?_enclosed enclosed rest
      simp [literal?, quoted, closed]

theorem literalsOf_chars (text : Text) (pieces : List (Piece Unit)) :
    literalsOf (text.map .char ++ pieces) = literalsOf pieces := by
  induction text with
  | nil => rfl
  | cons c text ih => exact ih

theorem protect_run {vault : Vault} {plain run rest : Text} (tidy : Tidy (plain ++ (run ++ rest)))
    (unquoted : ∀ quote ∈ quotes, quote ∉ plain) (quoted : QuotedRun run) :
    (vault.protect (plain ++ (run ++ rest))).2 = ((vault.store run).2.protect rest).2 := by
  have absent : ∀ start, start <:+ plain → start ≠ [] →
      literal? (start ++ (run ++ rest)) = none := by
    intro start suffix covers
    obtain ⟨c, start, rfl⟩ := List.exists_cons_of_ne_nil covers
    have other : ¬ (c = '"' ∨ c = '\'') := fun listed =>
      unquoted c (List.mem_pair.mpr listed) (suffix.subset (by simp))
    simp [literal?, other]
  obtain ⟨quote, inside, listed, rfl, run⟩ := quoted
  have spelled : quote :: (inside ++ [quote]) ++ rest = quote :: (inside ++ quote :: rest) := by
    simp
  have found : literal? (quote :: (inside ++ [quote]) ++ rest) = some ((), rest) := by
    rw [spelled] at tidy ⊢
    exact tidy.literal?_run listed (.of_run run)
  rw [protect_eq, protect_eq, Pattern.cut_append_of_absent absent,
    Pattern.cut_of_some (by simp) found, literalsOf_chars]
  simp [literalsOf, store]

/-- Every literal that is lifted out of a text is enclosed in quotes, and it is a quoted run unless
it starts with two quotes or its closing quote starts a line. From a tidy text exactly its runs are
lifted, one by one. -/
theorem protect_quotedRuns (vault : Vault) (text : Text) :
    ∃ added, (vault.protect text).2.literals = vault.literals ++ added ∧
      (∀ literal ∈ added, ∃ quote inside, quote ∈ quotes ∧ literal = quote :: (inside ++ [quote]) ∧
        Enclosed quote inside ∧
        (QuotedRun literal ↔ inside.head? ≠ some quote ∧ inside.getLast? ≠ some '\n')) ∧
      (Tidy text → (∀ literal ∈ added, QuotedRun literal) ∧
        ∀ plain run rest, text = plain ++ (run ++ rest) → (∀ quote ∈ quotes, quote ∉ plain) →
          QuotedRun run → (vault.protect text).2 = ((vault.store run).2.protect rest).2) := by
  refine ⟨literalsOf (literal?.cut text), by rw [protect_eq], ?_, fun tidy => ⟨?_, ?_⟩⟩
  · intro literal member
    obtain ⟨quote, inside, _, _, listed, rfl, enclosed, _⟩ := split_of_mem_literals member
    exact ⟨quote, inside, listed, rfl, enclosed, enclosed.quotedRun_iff listed⟩
  · intro literal member
    obtain ⟨quote, inside, _, _, listed, rfl, enclosed, rfl⟩ := split_of_mem_literals member
    exact tidy.quotedRun listed enclosed
  · rintro plain run rest rfl unquoted quoted
    exact protect_run tidy unquoted quoted

/-- An escaped quote, a quote of the other kind, an empty literal and a quote without its pair. -/
theorem protect_quotedRuns_escaped :
    let text := "x: \"a\\\"b;\" 'c\"\x7d'; y: \"\"\nz: it's".toList
    Tidy text ∧
      (Vault.protect ⟨[]⟩ text).2.literals =
        ["\"a\\\"b;\"".toList, "'c\"\x7d'".toList, "\"\"".toList] ∧
      ∀ literal ∈ (Vault.protect ⟨[]⟩ text).2.literals, QuotedRun literal := by
  intro text
  have tidy : Tidy text := by decide +kernel
  obtain ⟨added, stored, _, runs⟩ := protect_quotedRuns ⟨[]⟩ text
  refine ⟨tidy, by decide +kernel, ?_⟩
  rw [stored]
  exact (runs tidy).1

/-- What is stored after two quotes in a row goes on to a third, and what is stored before a quote
at the start of a line holds a line feed. -/
theorem protect_beyond_run :
    (Vault.protect ⟨[]⟩ "x: \"\"; y: \"z\";".toList).2.literals = ["\"\"; y: \"".toList] ∧
      ¬ QuotedRun "\"\"; y: \"".toList ∧
      (Vault.protect ⟨[]⟩ "x: \"y\n\";".toList).2.literals = ["\"y\n\"".toList] ∧
      ¬ QuotedRun "\"y\n\"".toList := by
  refine ⟨by decide +kernel, fun run => ?_, by decide +kernel, fun run => ?_⟩
  · have escaped := (@quotedRun_iff '"' "\"; y: ".toList).mp run |>.2.2.1
    cases escaped [] "; y: ".toList rfl
  · have line := (@quotedRun_iff '"' "y\n".toList).mp run |>.2.1
    exact line (by decide)

end Flatsheet.Vault
