import Mathlib.Data.List.Infix
import Flatsheet.Proofs.Placeholder
import Flatsheet.Proofs.Replacement

/-!
Lifting literals out and putting them back. Lifting is described piece by piece: each literal gives
way to the placeholder of the next free number and goes to the end of the vault. What a vault
restores depends on the text and on the literals that its placeholders name. So a text comes back as
it was, however much is stored in the meantime.
-/

namespace Flatsheet.Vault

def quotes : List Char := ['"', '\'']

/-- What a literal may hold: a line feed at its end only, a quote that is not escaped at its start
only, and no backslash at its end. -/
structure Enclosed (quote : Char) (inside : Text) : Prop where
  line : '\n' ∉ inside.dropLast
  escaped : ∀ before after, inside = before ++ quote :: after →
    before = [] ∨ before.getLast? = some '\\'
  closed : inside.getLast? ≠ some '\\'

namespace Enclosed

variable {quote x y : Char} {inside : Text}

theorem nil (quote : Char) : Enclosed quote [] :=
  ⟨by simp, fun before after split => by simp at split, by simp⟩

theorem singleton (quote : Char) (closes : x ≠ '\\') : Enclosed quote [x] := by
  refine ⟨by simp, fun before after split => ?_, by simpa using closes⟩
  cases before with
  | nil => exact .inl rfl
  | cons c before => simp at split

theorem cons (enclosed : Enclosed quote (y :: inside)) (sameLine : x ≠ '\n')
    (goesOn : y = quote → x = '\\') : Enclosed quote (x :: y :: inside) := by
  refine ⟨by simpa [sameLine.symm] using enclosed.line, fun before after split => ?_,
    by simpa using enclosed.closed⟩
  cases before with
  | nil => exact .inl rfl
  | cons c before =>
      obtain ⟨rfl, later⟩ := List.cons.inj split
      refine .inr ?_
      rcases enclosed.escaped before after later with rfl | last
      · rw [goesOn (List.cons.inj later).1]
        rfl
      · simp [List.getLast?_cons, last]

end Enclosed

theorem afterClosing?_eq_some {quote : Char} {text rest : Text}
    (found : afterClosing? quote text = some rest) :
    ∃ c inside, text = c :: (inside ++ quote :: rest) ∧ Enclosed quote (c :: inside) := by
  induction text with
  | nil => simp [afterClosing?] at found
  | cons x text ih =>
      cases text with
      | nil => simp [afterClosing?] at found
      | cons y text =>
          rw [afterClosing?] at found
          split at found
          next closes =>
              obtain rfl : text = rest := by simpa using found
              exact ⟨x, [], by simp [closes.2], .singleton quote closes.1⟩
          next goesOn =>
              split at found
              · contradiction
              next sameLine =>
                  obtain ⟨c, inside, split, enclosed⟩ := ih found
                  obtain ⟨rfl, rfl⟩ := List.cons.inj split
                  refine ⟨x, y :: inside, rfl, enclosed.cons sameLine fun closes => ?_⟩
                  simpa [closes] using goesOn

theorem literal?_eq_some {text rest : Text} {value : Unit}
    (found : literal? text = some (value, rest)) :
    ∃ quote inside, quote ∈ quotes ∧ text = quote :: (inside ++ quote :: rest) ∧
      Enclosed quote inside := by
  cases text with
  | nil => simp [literal?] at found
  | cons quote text =>
      simp only [literal?] at found
      split at found
      next quoted =>
          have listed : quote ∈ quotes := by simpa [quotes] using quoted
          split at found
          next closed =>
              obtain rfl : _ = rest := by simpa using found
              obtain ⟨c, inside, split, enclosed⟩ := afterClosing?_eq_some closed
              exact ⟨quote, c :: inside, listed, by rw [split]; rfl, enclosed⟩
          · obtain ⟨left, empty, same⟩ := Option.map_eq_some_iff.mp found
            obtain ⟨_, rfl⟩ := Prod.mk.inj same
            exact ⟨quote, [], listed, by simp [Text.dropPrefix?_eq_some.mp empty], .nil quote⟩
      · contradiction

theorem literal?_proper : Pattern.Proper literal? := by
  intro text value rest found
  obtain ⟨quote, inside, _, rfl, _⟩ := literal?_eq_some found
  exact ⟨quote :: (inside ++ [quote]), by simp, by simp⟩

/-- The pieces with a placeholder for each literal, numbered after the first `count`. -/
def numberedFrom : (count : Nat) → List (Piece Unit) → Text
  | _, [] => []
  | count, .char c :: pieces => c :: numberedFrom count pieces
  | count, .hit _ _ :: pieces =>
      placeholder (count + 1 : Nat) ++ numberedFrom (count + 1) pieces

def literalsOf : List (Piece Unit) → List Text
  | [] => []
  | .char _ :: pieces => literalsOf pieces
  | .hit _ literal :: pieces => literal :: literalsOf pieces

theorem protect_eq (vault : Vault) (text : Text) :
    vault.protect text = (numberedFrom vault.size (literal?.cut text),
      ⟨vault.literals ++ literalsOf (literal?.cut text)⟩) := by
  suffices pieces : ∀ (pieces : List (Piece Unit)) line (vault : Vault),
      (Pattern.replacePieces (m := StateM Vault)
        (fun _ _ literal => fun vault => vault.store literal) line pieces).run vault =
      (numberedFrom vault.size pieces, ⟨vault.literals ++ literalsOf pieces⟩) from
    pieces _ 1 vault
  intro pieces
  induction pieces with
  | nil =>
      intro line vault
      rw [literalsOf, List.append_nil]
      rfl
  | cons piece pieces ih =>
      intro line vault
      cases piece with
      | char c => rw [Pattern.run_replacePieces_char, ih, numberedFrom, literalsOf]
      | hit value literal =>
          have stored : StateT.run (m := Id) (fun vault : Vault => vault.store literal) vault =
              (placeholder (vault.size + 1 : Nat), ⟨vault.literals ++ [literal]⟩) := rfl
          have next : Vault.size ⟨vault.literals ++ [literal]⟩ = vault.size + 1 := by simp [size]
          rw [Pattern.run_replacePieces_hit, stored]
          simp only [ih, next, numberedFrom, literalsOf, List.append_assoc, List.singleton_append]

theorem literals_prefix_protect (vault : Vault) (text : Text) :
    vault.literals <+: (vault.protect text).2.literals := by
  rw [protect_eq]
  exact List.prefix_append _ _

theorem placeholder?_proper : Pattern.Proper placeholder? := by
  intro text digits rest found
  obtain ⟨rfl, _, _⟩ := placeholder?_eq_some.mp found
  exact ⟨openMark :: (digits ++ [closeMark]), by simp, by simp⟩

theorem restore_nil (vault : Vault) : vault.restore [] = .ok [] := rfl

theorem restore_of_none {vault : Vault} {c : Char} {text : Text}
    (missed : placeholder? (c :: text) = none) :
    vault.restore (c :: text) = (vault.restore text).map (c :: ·) := by
  unfold restore Pattern.replaceM
  rw [Pattern.cut_of_none missed, Pattern.replacePieces, Pattern.replacePieces_line _ _ 1,
    bind_pure_comp]
  rfl

theorem restore_of_some {vault : Vault} {text digits rest : Text}
    (found : placeholder? text = some (digits, rest)) :
    vault.restore text =
      (vault.numbered digits).bind fun literal => (vault.restore rest).map (literal ++ ·) := by
  obtain ⟨source, covers, rfl⟩ := placeholder?_proper found
  unfold restore Pattern.replaceM
  rw [Pattern.cut_of_some covers found, Pattern.replacePieces, Pattern.replacePieces_line _ _ 1]
  simp only [bind_pure_comp]
  rfl

theorem find?_eq_some_iff {vault : Vault} {digits literal : Text} :
    vault.find? digits = some literal ↔
      isRead digits = true ∧ vault.get? (indexOf digits) = some literal := by
  rw [find?, Option.ite_none_right_eq_some]

theorem numbered_eq_ok_iff {vault : Vault} {digits literal : Text} :
    vault.numbered digits = .ok literal ↔
      isRead digits = true ∧ vault.get? (indexOf digits) = some literal := by
  rw [← find?_eq_some_iff, numbered]
  cases vault.find? digits with
  | none => simp
  | some literal => simp

theorem numbered_ok_iff {vault : Vault} {digits : Text} :
    (∃ literal, vault.numbered digits = .ok literal) ↔
      isRead digits = true ∧ (vault.get? (indexOf digits)).isSome := by
  simp only [numbered_eq_ok_iff, exists_and_left, Option.isSome_iff_exists]

theorem isRead_ofNat (number : Nat) : isRead (Text.ofNat number) = true := by
  rw [isRead, Text.decimalValue_ofNat]
  simp

theorem numbered_ofNat {vault : Vault} {number : Nat} {literal : Text}
    (stored : vault.literals[number]? = some literal) :
    vault.numbered (Text.ofNat (number + 1)) = .ok literal := by
  have index : indexOf (Text.ofNat (number + 1)) = number := by
    rw [indexOf, Text.decimalValue_ofNat]
    omega
  refine numbered_eq_ok_iff.mpr ⟨isRead_ofNat (number + 1), ?_⟩
  simpa [get?, index] using stored

theorem restore_placeholder {vault : Vault} {number : Nat} {literal rest : Text}
    (stored : vault.literals[number]? = some literal) :
    vault.restore (placeholder (number + 1 : Nat) ++ rest) =
      (vault.restore rest).map (literal ++ ·) := by
  rw [restore_of_some (placeholder?_placeholder (number + 1) rest), numbered_ofNat stored]
  rfl

/-- A vault restores every text whose placeholders have numbers up to its size. -/
theorem restore_of_intact {vault : Vault} {alone : Prop} {low : Nat} {text : Text}
    (intact : Intact alone low vault.size text) :
    ∃ restored, vault.restore text = .ok restored := by
  induction intact with
  | nil => exact ⟨[], rfl⟩
  | @char c text opening _ _ ih =>
      obtain ⟨restored, rest⟩ := ih
      rw [restore_of_none (placeholder?_of_ne opening), rest]
      exact ⟨c :: restored, rfl⟩
  | @placeholder number text above below _ ih =>
      obtain ⟨restored, rest⟩ := ih
      obtain ⟨index, rfl⟩ : ∃ index, number = index + 1 := ⟨number - 1, by omega⟩
      have inside : index < vault.literals.length := by
        rw [size] at below
        omega
      rw [restore_placeholder (List.getElem?_eq_getElem inside), rest]
      exact ⟨vault.literals[index] ++ restored, rfl⟩

/-- The placeholders of a text that starts with one: that one, and those after it. -/
theorem placeholder?_of_mem_tails {text digits rest tail found left : Text}
    (starts : placeholder? text = some (digits, rest)) (member : tail ∈ text.tails)
    (placed : placeholder? tail = some (found, left)) :
    found = digits ∨ tail ∈ rest.tails := by
  obtain ⟨rfl, _, decimal⟩ := placeholder?_eq_some.mp starts
  obtain ⟨split, _, _⟩ := placeholder?_eq_some.mp placed
  obtain ⟨front, same⟩ := (List.mem_tails _ _).mp member
  cases front with
  | nil =>
      obtain rfl : tail = _ := same
      rw [starts] at placed
      exact .inl (Prod.mk.inj (Option.some.inj placed)).1.symm
  | cons c front =>
      obtain ⟨_, inside⟩ := List.cons.inj same
      rcases List.append_eq_append_iff.mp inside with
        ⟨excess, within, same⟩ | ⟨excess, beyond, same⟩
      · cases excess with
        | nil => exact absurd (split.symm.trans same) (by simp [openMark_ne_closeMark])
        | cons digit excess =>
            obtain rfl : digit = openMark := (List.cons.inj (same.symm.trans split)).1
            have decimal := decimal openMark (by simp [within])
            simp [not_isDecimalDigit_openMark] at decimal
      · cases excess with
        | nil => exact absurd (split.symm.trans same.symm) (by simp [openMark_ne_closeMark])
        | cons mark excess =>
            refine .inr ((List.mem_tails _ _).mpr ⟨excess, ?_⟩)
            exact (List.cons.inj same).2.symm

/-- Restoring succeeds exactly if every placeholder of the text is read and has its literal. -/
theorem restore_ok_iff {vault : Vault} {text : Text} :
    (∃ restored, vault.restore text = .ok restored) ↔
      ∀ tail ∈ text.tails, ∀ digits left, placeholder? tail = some (digits, left) →
        isRead digits = true ∧ (vault.get? (indexOf digits)).isSome := by
  refine Pattern.cut_induction placeholder?_proper (motive := fun text _ =>
    (∃ restored, vault.restore text = .ok restored) ↔
      ∀ tail ∈ text.tails, ∀ digits left, placeholder? tail = some (digits, left) →
        isRead digits = true ∧ (vault.get? (indexOf digits)).isSome) ?_ ?_ ?_ text
  · simp [restore_nil, placeholder?]
  · intro c rest missed ih
    have mapped : (∃ restored, vault.restore (c :: rest) = .ok restored) ↔
        ∃ restored, vault.restore rest = .ok restored := by
      rw [restore_of_none missed]
      cases vault.restore rest <;> simp [Except.map]
    rw [mapped, ih, List.tails_cons, List.forall_mem_cons]
    simp [missed]
  · intro source digits rest _ found ih
    have mapped : (∃ restored, vault.restore (source ++ rest) = .ok restored) ↔
        (∃ literal, vault.numbered digits = .ok literal) ∧
          ∃ restored, vault.restore rest = .ok restored := by
      rw [restore_of_some found]
      cases vault.numbered digits <;> cases vault.restore rest <;> simp [Except.map, Except.bind]
    rw [mapped, numbered_ok_iff, ih]
    constructor
    · rintro ⟨here, later⟩ tail member other left placed
      rcases placeholder?_of_mem_tails found member placed with rfl | inside
      · exact here
      · exact later tail inside other left placed
    · intro all
      refine ⟨all (source ++ rest) (by simp) digits rest found, fun tail member => all tail ?_⟩
      rw [List.mem_tails] at member ⊢
      exact member.trans (List.suffix_append source rest)

/-- Lifting makes no placeholder out of the characters that it leaves. -/
theorem numberedFrom_starts {count : Nat} {text digits left : Text}
    (unopened : openMark ∉ digits)
    (starts : numberedFrom count (literal?.cut text) = digits ++ closeMark :: left) :
    ∃ rest, text = digits ++ closeMark :: rest := by
  revert digits count
  refine Pattern.cut_induction literal?_proper (motive := fun text pieces =>
    ∀ {count : Nat} {digits : Text}, openMark ∉ digits →
      numberedFrom count pieces = digits ++ closeMark :: left →
      ∃ rest, text = digits ++ closeMark :: rest) ?_ ?_ ?_ text
  · intro count digits _ starts
    simp [numberedFrom] at starts
  · intro c rest _ ih count digits unopened starts
    cases digits with
    | nil =>
        obtain ⟨rfl, _⟩ := List.cons.inj starts
        exact ⟨rest, rfl⟩
    | cons digit digits =>
        obtain ⟨rfl, later⟩ := List.cons.inj starts
        obtain ⟨rest, split⟩ := ih (by simp_all) later
        exact ⟨rest, by simp [split]⟩
  · intro source value rest _ _ _ count digits unopened starts
    rw [numberedFrom, placeholder_eq] at starts
    cases digits with
    | nil => exact absurd (List.cons.inj starts).1 openMark_ne_closeMark
    | cons digit digits => exact absurd (List.cons.inj starts).1 (by simp_all)

/-- A character that opens no placeholder of the text opens none once literals are lifted. -/
theorem placeholder?_numberedFrom {c : Char} {rest : Text} (count : Nat)
    (bare : ∀ tail ∈ (c :: rest).tails, placeholder? tail = none) :
    placeholder? (c :: numberedFrom count (literal?.cut rest)) = none := by
  rw [Option.eq_none_iff_forall_ne_some]
  rintro ⟨digits, left⟩ found
  obtain ⟨split, nonempty, decimal⟩ := placeholder?_eq_some.mp found
  obtain ⟨rfl, starts⟩ := List.cons.inj split
  have unopened : openMark ∉ digits := fun member =>
    absurd (decimal openMark member) (by simp [not_isDecimalDigit_openMark])
  obtain ⟨after, rfl⟩ := numberedFrom_starts unopened starts
  have written : placeholder? (openMark :: (digits ++ closeMark :: after)) =
      some (digits, after) := placeholder?_eq_some.mpr ⟨rfl, nonempty, decimal⟩
  rw [bare _ (by simp)] at written
  contradiction

theorem restore_numberedFrom {vault : Vault} {count : Nat} {text : Text}
    (bare : ∀ rest ∈ text.tails, placeholder? rest = none)
    (stored : literalsOf (literal?.cut text) <+: vault.literals.drop count) :
    vault.restore (numberedFrom count (literal?.cut text)) = .ok text := by
  revert count
  refine Pattern.cut_induction literal?_proper (motive := fun text pieces =>
    (∀ rest ∈ text.tails, placeholder? rest = none) → ∀ {count : Nat},
      literalsOf pieces <+: vault.literals.drop count →
      vault.restore (numberedFrom count pieces) = .ok text) ?_ ?_ ?_ text bare
  · intro _ count _
    rfl
  · intro c rest _ ih bare count stored
    rw [numberedFrom, restore_of_none (placeholder?_numberedFrom count bare),
      ih (fun tail member => bare tail (by simp_all)) stored]
    rfl
  · intro source value rest _ _ ih bare count stored
    obtain ⟨later, split⟩ := stored
    have here : vault.literals[count]? = some source := by
      have := congrArg List.head? split
      simpa [literalsOf] using this.symm
    have next : literalsOf (literal?.cut rest) <+: vault.literals.drop (count + 1) := by
      refine ⟨later, ?_⟩
      have := congrArg List.tail split
      simpa [literalsOf] using this
    rw [numberedFrom, restore_placeholder here, ih ?_ next]
    · rfl
    · intro tail member
      refine bare tail ?_
      rw [List.mem_tails] at member ⊢
      exact member.trans (List.suffix_append source rest)

/-- What may be asked of a vault that changes it. -/
inductive Call where
  | protect (text : Text)
  | store (literal : Text)

def step (vault : Vault) : Call → Vault
  | .protect text => (vault.protect text).2
  | .store literal => (vault.store literal).2

def after (vault : Vault) (calls : List Call) : Vault := calls.foldl step vault

theorem literals_prefix_step (vault : Vault) (call : Call) :
    vault.literals <+: (vault.step call).literals := by
  cases call with
  | protect text => exact literals_prefix_protect vault text
  | store literal => exact List.prefix_append _ _

theorem literals_prefix_after (vault : Vault) (calls : List Call) :
    vault.literals <+: (vault.after calls).literals := by
  induction calls generalizing vault with
  | nil => exact List.prefix_rfl
  | cons call calls ih => exact (literals_prefix_step vault call).trans (ih (vault.step call))

/-- Lifting literals out of a text only adds to the vault. If no placeholder is written in the text,
it is restored as it was, now and after any further calls. -/
theorem restore_protect_after (vault : Vault) (text : Text) (calls : List Call) :
    vault.literals <+: (vault.protect text).2.literals ∧
      ((∀ rest ∈ text.tails, placeholder? rest = none) →
        ((vault.protect text).2.after calls).restore (vault.protect text).1 = .ok text) := by
  refine ⟨literals_prefix_protect vault text, fun bare => ?_⟩
  obtain ⟨later, kept⟩ := literals_prefix_after (vault.protect text).2 calls
  rw [protect_eq] at kept ⊢
  apply restore_numberedFrom bare
  refine ⟨later, ?_⟩
  simp only [← kept, size]
  simp

/-- Stray marks and digits beside literals, in a vault that is not empty. -/
theorem restore_protect_after_stray :
    let vault : Vault := ⟨["'old'".toList]⟩
    let text : Text := "\ue0001\"a\"1\ue001 '\ue000' ''".toList
    let calls : List Call := [.store "'new'".toList, .protect "x: \"y\";".toList]
    (∀ rest ∈ text.tails, placeholder? rest = none) ∧
      ((vault.protect text).2.after calls).restore (vault.protect text).1 = .ok text := by
  intro vault text calls
  have bare : ∀ rest ∈ text.tails, placeholder? rest = none := by decide +kernel
  exact ⟨bare, (restore_protect_after vault text calls).2 bare⟩

end Flatsheet.Vault
