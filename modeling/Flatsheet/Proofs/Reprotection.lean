import Flatsheet.Proofs.QuotedRuns

/-!
Lifting literals out of a text from which they have been lifted before. A quote is left in the text
if nothing closes it: every quote of its kind that comes later has a backslash before it or a line
feed on the way. The placeholders keep both in place, so nothing closes the quote once literals
between the two have been lifted. Only a literal with a line feed in it takes one away.
-/

namespace Flatsheet.Vault

section

variable {quote x y : Char} {inside text : Text}

theorem afterClosing?_eq_none_iff :
    afterClosing? quote (x :: y :: text) = none ↔
      (y = quote → x = '\\') ∧ (x = '\n' ∨ afterClosing? quote (y :: text) = none) := by
  rw [afterClosing?]
  by_cases closes : x ≠ '\\' ∧ y = quote
  · rw [if_pos closes]
    simp only [reduceCtorEq, false_iff]
    intro missed
    exact closes.1 (missed.1 closes.2)
  · have goesOn : y = quote → x = '\\' := by
      intro same
      by_contra other
      exact closes ⟨other, same⟩
    rw [if_neg closes, and_iff_right goesOn]
    by_cases newline : x = '\n'
    · exact iff_of_true (if_pos newline) (.inl newline)
    · rw [if_neg newline, or_iff_right newline]

/-- A backslash in front closes nothing and stands on the line. -/
theorem afterClosing?_backslash (text : Text) :
    afterClosing? quote ('\\' :: text) = afterClosing? quote text := by
  cases text with
  | nil => rfl
  | cons y text =>
      rw [afterClosing?, if_neg (by simp), if_neg (by decide)]

/-- Nothing closes a quote before a place on the line from which nothing does, where the quote is
absent in between. -/
theorem afterClosing?_before (absent : quote ∉ inside ++ [y])
    (missed : afterClosing? quote (y :: text) = none) :
    afterClosing? quote (x :: (inside ++ y :: text)) = none := by
  induction inside generalizing x with
  | nil =>
      have other : y ≠ quote := fun same => absent (by simp [same])
      exact afterClosing?_eq_none_iff.mpr ⟨fun same => absurd same other, .inr missed⟩
  | cons d inside ih =>
      have other : d ≠ quote := fun same => absent (by simp [same])
      have later : quote ∉ inside ++ [y] := fun member => absent (List.mem_cons_of_mem d member)
      exact afterClosing?_eq_none_iff.mpr ⟨fun same => absurd same other, .inr (ih later)⟩

/-- What closes a quote from a later place on the line closes it from here. -/
theorem afterClosing?_behind (line : '\n' ∉ x :: inside)
    (missed : afterClosing? quote (x :: (inside ++ y :: text)) = none) :
    afterClosing? quote (y :: text) = none := by
  induction inside generalizing x with
  | nil =>
      have sameLine : x ≠ '\n' := fun newline => line (by simp [newline])
      exact (afterClosing?_eq_none_iff.mp missed).2.resolve_left sameLine
  | cons d inside ih =>
      have sameLine : x ≠ '\n' := fun newline => line (by simp [newline])
      have later : '\n' ∉ d :: inside := fun member => line (List.mem_cons_of_mem x member)
      exact ih later ((afterClosing?_eq_none_iff.mp missed).2.resolve_left sameLine)

theorem literal?_eq_none_iff (quoted : quote ∈ quotes) :
    literal? (quote :: text) = none ↔
      afterClosing? quote text = none ∧ text.head? ≠ some quote := by
  rw [literal?, if_pos (List.mem_pair.mp quoted)]
  cases afterClosing? quote text with
  | some rest => simp
  | none =>
      cases text with
      | nil => simp [Text.dropPrefix?]
      | cons c text => by_cases same : quote = c <;> simp [Text.dropPrefix?, same, Ne.symm]

theorem literal?_of_not_mem (other : x ∉ quotes) : literal? (x :: text) = none := by
  rw [literal?, if_neg fun listed => other (List.mem_pair.mpr listed)]

end

theorem not_mem_quotes_of_mem_placeholder {number : Nat} {c : Char}
    (member : c ∈ placeholder number) : c ∉ quotes := by
  intro quoted
  apply not_solid_of_mem_placeholder member
  rcases List.mem_pair.mp quoted with rfl | rfl <;> decide

/-- Nothing closes a quote in what lifting leaves if nothing closes it in the text. A placeholder may
end where the text has a quote, so the characters before the two may differ. -/
theorem afterClosing?_numberedFrom {quote x y : Char} {text : Text} (quoted : quote ∈ quotes)
    (lines : ∀ literal ∈ literalsOf (literal?.cut text), '\n' ∉ literal)
    (backslash : x = '\\' → y = '\\') (newline : x = '\n' → y = '\n')
    (missed : afterClosing? quote (x :: text) = none) (count : Nat) :
    afterClosing? quote (y :: numberedFrom count (literal?.cut text)) = none := by
  revert x y count
  refine Pattern.cut_induction literal?_proper (motive := fun text pieces =>
    (∀ literal ∈ literalsOf pieces, '\n' ∉ literal) → ∀ {x y : Char}, (x = '\\' → y = '\\') →
      (x = '\n' → y = '\n') → afterClosing? quote (x :: text) = none → ∀ count,
      afterClosing? quote (y :: numberedFrom count pieces) = none) ?_ ?_ ?_ text lines
  · intro _ x y _ _ _ count
    rfl
  · intro c rest _ ih lines x y backslash newline missed count
    obtain ⟨escaped, onward⟩ := afterClosing?_eq_none_iff.mp missed
    rw [numberedFrom, afterClosing?_eq_none_iff]
    refine ⟨fun same => backslash (escaped same), ?_⟩
    cases onward with
    | inl ended => exact .inl (newline ended)
    | inr later => exact .inr (ih lines id id later count)
  · intro source value rest _ found ih lines x y backslash newline missed count
    obtain ⟨mark, inside, listed, shape, _⟩ := literal?_eq_some found
    have spelled : source = mark :: (inside ++ [mark]) :=
      List.append_cancel_right (shape.trans (by simp))
    have numbered : numberedFrom count (.hit value source :: literal?.cut rest) =
        openMark :: (Text.ofNat (count + 1) ++
          closeMark :: numberedFrom (count + 1) (literal?.cut rest)) := by
      rw [numberedFrom, placeholder_eq]
      simp
    have absent : quote ∉ placeholder (count + 1 : Nat) := fun member =>
      not_mem_quotes_of_mem_placeholder member quoted
    rw [placeholder_eq, List.mem_cons, not_or] at absent
    rw [shape] at missed
    rw [numbered, afterClosing?_eq_none_iff]
    refine ⟨fun same => absurd same.symm absent.1, ?_⟩
    cases (afterClosing?_eq_none_iff.mp missed).2 with
    | inl ended => exact .inl (newline ended)
    | inr later =>
        have line : '\n' ∉ mark :: inside := by
          intro member
          apply lines source (by simp [literalsOf])
          rw [spelled]
          exact List.mem_append_left [mark] member
        have plain : mark ≠ '\\' ∧ mark ≠ '\n' := by
          rcases List.mem_pair.mp listed with rfl | rfl <;> decide
        have next : afterClosing? quote
            (closeMark :: numberedFrom (count + 1) (literal?.cut rest)) = none :=
          ih (fun literal member => lines literal (by simp [literalsOf, member]))
            (fun same => absurd same plain.1) (fun same => absurd same plain.2)
            (afterClosing?_behind line later) (count + 1)
        exact .inr (afterClosing?_before absent.2 next)

theorem head?_numberedFrom {c : Char} {text : Text} {count : Nat} (other : c ≠ openMark)
    (first : (numberedFrom count (literal?.cut text)).head? = some c) : text.head? = some c := by
  revert first
  refine Pattern.cut_induction literal?_proper (motive := fun text pieces =>
    (numberedFrom count pieces).head? = some c → text.head? = some c) id ?_ ?_ text
  · intro d rest _ _ first
    exact first
  · intro source value rest _ _ _ first
    rw [numberedFrom, placeholder_eq] at first
    exact absurd (Option.some.inj first).symm other

theorem literal?_numberedFrom {c : Char} {text : Text} (missed : literal? (c :: text) = none)
    (lines : ∀ literal ∈ literalsOf (literal?.cut text), '\n' ∉ literal) (count : Nat) :
    literal? (c :: numberedFrom count (literal?.cut text)) = none := by
  by_cases quoted : c ∈ quotes
  · obtain ⟨endless, single⟩ := (literal?_eq_none_iff quoted).mp missed
    apply (literal?_eq_none_iff quoted).mpr
    constructor
    · rw [← afterClosing?_backslash] at endless ⊢
      exact afterClosing?_numberedFrom quoted lines id id endless count
    · intro first
      apply single (head?_numberedFrom _ first)
      rcases List.mem_pair.mp quoted with rfl | rfl <;> decide
  · exact literal?_of_not_mem quoted

/-- No literal is left once all have been lifted, unless one of them holds a line feed. -/
theorem literal?_absent {text : Text}
    (lines : ∀ literal ∈ literalsOf (literal?.cut text), '\n' ∉ literal) (count : Nat) :
    ∀ start, start <:+ numberedFrom count (literal?.cut text) → literal? start = none := by
  revert count
  refine Pattern.cut_induction literal?_proper (motive := fun text pieces =>
    (∀ literal ∈ literalsOf pieces, '\n' ∉ literal) → ∀ count start,
      start <:+ numberedFrom count pieces → literal? start = none) ?_ ?_ ?_ text lines
  · intro _ count start suffix
    rw [numberedFrom, List.suffix_nil] at suffix
    rw [suffix]
    rfl
  · intro c rest missed ih lines count start suffix
    rw [numberedFrom, List.suffix_cons_iff] at suffix
    cases suffix with
    | inl whole =>
        rw [whole]
        exact literal?_numberedFrom missed lines count
    | inr later => exact ih lines count start later
  · intro source value rest _ _ ih lines count start suffix
    rw [numberedFrom] at suffix
    cases Text.suffix_append suffix with
    | inl later =>
        exact ih (fun literal member => lines literal (by simp [literalsOf, member])) (count + 1)
          start later
    | inr within =>
        obtain ⟨left, inside, nonempty, rfl⟩ := within
        obtain ⟨c, left, rfl⟩ := List.exists_cons_of_ne_nil nonempty
        exact literal?_of_not_mem (not_mem_quotes_of_mem_placeholder (inside.subset (by simp)))

theorem numberedFrom_chars (count : Nat) (text : Text) :
    numberedFrom count (text.map .char) = text := by
  induction text with
  | nil => rfl
  | cons c text ih => exact congrArg (c :: ·) ih

theorem protect_of_absent {text : Text}
    (absent : ∀ start, start <:+ text → literal? start = none) (vault : Vault) :
    vault.protect text = (text, vault) := by
  have none : literalsOf (text.map .char) = [] := by
    have chars := literalsOf_chars text []
    rwa [List.append_nil] at chars
  rw [protect_eq, Pattern.cut_of_absent absent, numberedFrom_chars, none, List.append_nil]

/-- Lifting literals out again does nothing: if no literal that was lifted holds a line feed, then
none is left, and a second run gives back the text and the vault. -/
theorem protect_protect {vault : Vault} {text : Text}
    (lines : ∀ literal ∈ (vault.protect text).2.literals.drop vault.size, '\n' ∉ literal) :
    (∀ start, start <:+ (vault.protect text).1 → literal? start = none) ∧
      (vault.protect text).2.protect (vault.protect text).1 = vault.protect text := by
  have lifted : (vault.protect text).2.literals.drop vault.size =
      literalsOf (literal?.cut text) := by
    rw [protect_eq]
    exact List.drop_left
  rw [lifted] at lines
  have absent : ∀ start, start <:+ (vault.protect text).1 → literal? start = none := by
    rw [protect_eq]
    exact literal?_absent lines vault.size
  exact ⟨absent, protect_of_absent absent (vault.protect text).2⟩

/-- Literals between a quote and an escaped one of its kind, and between quotes on two lines. -/
theorem protect_protect_unclosed :
    let vault : Vault := ⟨["'old'".toList]⟩
    let text : Text := "x: 'a \"b\" \\' c; y: \"d\ne: \"f\" \\\" '"
    (vault.protect text).1 =
        "x: 'a \ue0002\ue001 \\' c; y: \"d\ne: \ue0003\ue001 \\\" '".toList ∧
      (∀ literal ∈ (vault.protect text).2.literals.drop vault.size, '\n' ∉ literal) ∧
      (vault.protect text).2.protect (vault.protect text).1 = vault.protect text := by
  intro vault text
  have lines : ∀ literal ∈ (vault.protect text).2.literals.drop vault.size, '\n' ∉ literal := by
    decide +kernel
  exact ⟨by decide +kernel, lines, (protect_protect lines).2⟩

example : let first := Vault.protect ⟨[]⟩ "'\"\n\"'".toList
    first.1 = "'\ue0001\ue001'".toList ∧ (first.2.protect first.1).1 = "\ue0002\ue001".toList := by
  decide +kernel

end Flatsheet.Vault
