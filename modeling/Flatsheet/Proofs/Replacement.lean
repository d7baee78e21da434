import Mathlib.Data.List.Basic
import Flatsheet.Text.Pattern

/-!
Cutting and replacing by a pattern, followed from left to right. While matches are replaced, the
text as it stands is what is written so far and what is still to be read. An assertion about it
holds at the end if it holds at the start and outlives the replacement of one match.
-/

namespace Flatsheet

open Std.Do

universe u v

theorem Text.newlines_append (front rest : Text) :
    Text.newlines (front ++ rest) = Text.newlines front + Text.newlines rest :=
  List.count_append

theorem Text.newlines_cons (c : Char) (rest : Text) :
    Text.newlines (c :: rest) = Text.newlines [c] + Text.newlines rest :=
  Text.newlines_append [c] rest

namespace Pattern

variable {α : Type u} {pattern : Pattern α}

/-- Each match covers at least one character and leaves what follows it. -/
def Proper (pattern : Pattern α) : Prop :=
  ∀ ⦃text value rest⦄, pattern text = some (value, rest) →
    ∃ source, source ≠ [] ∧ text = source ++ rest

theorem cutFrom_covered (covered text : Text) :
    pattern.cutFrom covered.length (covered ++ text) = pattern.cut text := by
  induction covered with
  | nil => rfl
  | cons c covered ih => exact ih

theorem cut_of_none {c : Char} {text : Text} (missed : pattern (c :: text) = none) :
    pattern.cut (c :: text) = .char c :: pattern.cut text := by
  simp only [cut, cutFrom, missed]

theorem cut_of_some {source rest : Text} {value : α} (covers : source ≠ [])
    (found : pattern (source ++ rest) = some (value, rest)) :
    pattern.cut (source ++ rest) = .hit value source :: pattern.cut rest := by
  obtain ⟨c, covered, rfl⟩ := List.exists_cons_of_ne_nil covers
  have size : (c :: (covered ++ rest)).length - rest.length = covered.length + 1 := by
    simp only [List.length_cons, List.length_append]
    omega
  rw [List.cons_append] at found ⊢
  simp only [cut, cutFrom, found, size, List.take_succ_cons, List.take_left', Nat.add_sub_cancel]
  rw [cutFrom_covered]
  rfl

/-- Cutting goes through a text from left to right. -/
theorem cut_induction (proper : pattern.Proper) {motive : Text → List (Piece α) → Prop}
    (nil : motive [] [])
    (char : ∀ c rest, pattern (c :: rest) = none → motive rest (pattern.cut rest) →
      motive (c :: rest) (.char c :: pattern.cut rest))
    (hit : ∀ source value rest, source ≠ [] → pattern (source ++ rest) = some (value, rest) →
      motive rest (pattern.cut rest) →
      motive (source ++ rest) (.hit value source :: pattern.cut rest))
    (text : Text) : motive text (pattern.cut text) := by
  induction size : text.length using Nat.strongRecOn generalizing text with
  | ind length ih =>
      subst size
      cases text with
      | nil => exact nil
      | cons c rest =>
          cases found : pattern (c :: rest) with
          | none =>
              rw [cut_of_none found]
              exact char c rest found (ih rest.length (by simp) rest rfl)
          | some result =>
              obtain ⟨value, left⟩ := result
              obtain ⟨source, covers, split⟩ := proper found
              have shorter : left.length < (c :: rest).length := by
                have := List.length_pos_iff.mpr covers
                rw [split, List.length_append]
                omega
              rw [split] at found ⊢
              rw [cut_of_some covers found]
              exact hit source value left covers found (ih left.length shorter left rfl)

theorem cut_sources (proper : pattern.Proper) (text : Text) :
    (pattern.cut text).flatMap Piece.source = text := by
  refine cut_induction proper (motive := fun text pieces => pieces.flatMap Piece.source = text)
    rfl ?_ ?_ text
  · intro c rest _ ih
    rw [List.flatMap_cons, ih]
    rfl
  · intro source value rest _ _ ih
    rw [List.flatMap_cons, ih]
    rfl

theorem split_of_mem_cut (proper : pattern.Proper) {text source : Text} {value : α}
    (member : .hit value source ∈ pattern.cut text) :
    ∃ before rest, text = before ++ (source ++ rest) ∧
      pattern (source ++ rest) = some (value, rest) := by
  revert member
  refine cut_induction proper (motive := fun text pieces => .hit value source ∈ pieces →
    ∃ before rest, text = before ++ (source ++ rest) ∧
      pattern (source ++ rest) = some (value, rest)) ?_ ?_ ?_ text
  · intro member
    contradiction
  · intro c rest _ ih member
    obtain ⟨before, left, split, found⟩ := ih (by simpa using member)
    exact ⟨c :: before, left, by simp [split], found⟩
  · intro covered here rest _ matched ih member
    rcases List.mem_cons.mp member with same | later
    · cases same
      exact ⟨[], rest, rfl, matched⟩
    · obtain ⟨before, left, split, found⟩ := ih later
      exact ⟨covered ++ before, left, by simp [split], found⟩

/-- Where no match begins before it, a text is cut as if it stood alone. -/
theorem cut_append_of_absent {front rest : Text}
    (absent : ∀ start, start <:+ front → start ≠ [] → pattern (start ++ rest) = none) :
    pattern.cut (front ++ rest) = front.map .char ++ pattern.cut rest := by
  induction front with
  | nil => rfl
  | cons c front ih =>
      have missed : pattern (c :: (front ++ rest)) = none :=
        absent (c :: front) List.suffix_rfl (by simp)
      rw [List.cons_append, cut_of_none missed,
        ih fun start suffix => absent start (suffix.trans (List.suffix_cons c front))]
      rfl

theorem cut_of_absent {text : Text} (absent : ∀ start, start <:+ text → pattern start = none) :
    pattern.cut text = text.map .char := by
  have chars := @cut_append_of_absent _ pattern text [] fun start suffix _ => by
    rw [List.append_nil]
    exact absent start suffix
  rw [List.append_nil] at chars
  exact chars.trans (List.append_nil _)

/-- Before the mark, the pattern finds what it finds at the end of a text. -/
def HaltsAt (pattern : Pattern α) (mark : Char) : Prop :=
  ∀ start rest, start ≠ [] →
    pattern (start ++ mark :: rest) = (pattern start).map (Prod.map id (· ++ mark :: rest))

/-- A text is cut before such a mark as if it ended there. -/
theorem cut_append_mark (proper : pattern.Proper) {mark : Char} (halts : pattern.HaltsAt mark)
    (front rest : Text) :
    pattern.cut (front ++ mark :: rest) = pattern.cut front ++ pattern.cut (mark :: rest) := by
  refine cut_induction proper (motive := fun front pieces =>
    pattern.cut (front ++ mark :: rest) = pieces ++ pattern.cut (mark :: rest)) rfl ?_ ?_ front
  · intro c front missed ih
    have missing : pattern (c :: (front ++ mark :: rest)) = none := by
      rw [← List.cons_append, halts _ _ (List.cons_ne_nil c front), missed]
      rfl
    rw [List.cons_append, cut_of_none missing, ih]
    rfl
  · intro source value left covers found ih
    have matched : pattern (source ++ (left ++ mark :: rest)) =
        some (value, left ++ mark :: rest) := by
      rw [← List.append_assoc, halts _ _ (List.append_ne_nil_of_left_ne_nil covers left), found]
      rfl
    rw [List.append_assoc, cut_of_some covers matched, ih]
    rfl

theorem replace_of_none {replacement : α → Text} {c : Char} {rest : Text}
    (missed : pattern (c :: rest) = none) :
    pattern.replace replacement (c :: rest) = c :: pattern.replace replacement rest := by
  rw [replace, cut_of_none missed]
  rfl

theorem replace_of_some {replacement : α → Text} {source rest : Text} {value : α}
    (covers : source ≠ []) (found : pattern (source ++ rest) = some (value, rest)) :
    pattern.replace replacement (source ++ rest) =
      replacement value ++ pattern.replace replacement rest := by
  rw [replace, cut_of_some covers found]
  rfl

theorem replace_of_absent {text : Text} (absent : ∀ start, start <:+ text → pattern start = none)
    (replacement : α → Text) : pattern.replace replacement text = text := by
  rw [replace, cut_of_absent absent, List.flatMap_map]
  exact List.flatMap_singleton' text

theorem replace_append_mark (proper : pattern.Proper) {mark : Char} (halts : pattern.HaltsAt mark)
    (replacement : α → Text) (front rest : Text) :
    pattern.replace replacement (front ++ mark :: rest) =
      pattern.replace replacement front ++ pattern.replace replacement (mark :: rest) := by
  rw [replace, cut_append_mark proper halts, List.flatMap_append]
  rfl

/-- What holds of the text as it stands and outlives the replacement of a match holds at the end. -/
theorem replace_invariant (proper : pattern.Proper) {replacement : α → Text} (inv : Text → Prop)
    (hit : ∀ written source value left, pattern (source ++ left) = some (value, left) →
      inv (written ++ (source ++ left)) → inv (written ++ (replacement value ++ left)))
    {text : Text} (start : inv text) : inv (pattern.replace replacement text) := by
  suffices steps : ∀ written, inv (written ++ text) →
      inv (written ++ pattern.replace replacement text) from steps [] start
  refine cut_induction proper (motive := fun text _ => ∀ written, inv (written ++ text) →
    inv (written ++ pattern.replace replacement text)) ?_ ?_ ?_ text
  · intro written holds
    exact holds
  · intro c rest missed ih written holds
    rw [replace_of_none missed]
    simpa using ih (written ++ [c]) (by simpa using holds)
  · intro source value rest covers found ih written holds
    rw [replace_of_some covers found]
    have replaced := hit written source value rest found holds
    simpa using ih (written ++ replacement value) (by simpa using replaced)

variable {m : Type → Type v} {ps : PostShape.{0}} [Monad m]

/-- A replacement that looks at no line is the same from every line on. -/
theorem replacePieces_line {replace : α → Text → m Text} (pieces : List (Piece α))
    (first second : Nat) :
    replacePieces (fun _ => replace) first pieces =
      replacePieces (fun _ => replace) second pieces := by
  induction pieces generalizing first second with
  | nil => rfl
  | cons piece pieces ih =>
      cases piece with
      | char c =>
          simp only [replacePieces, ih (first + Text.newlines [c]) (second + Text.newlines [c])]
      | hit value source =>
          simp only [replacePieces,
            ih (first + Text.newlines source) (second + Text.newlines source)]

theorem replacePieces_append [LawfulMonad m] (replace : Nat → α → Text → m Text) (line : Nat)
    (first second : List (Piece α)) :
    replacePieces replace line (first ++ second) = (do
      let before ← replacePieces replace line first
      let after ← replacePieces replace (line + Text.newlines (first.flatMap Piece.source)) second
      return before ++ after) := by
  have counted (line : Nat) (source more : Text) : line + Text.newlines (source ++ more) =
      line + Text.newlines source + Text.newlines more := by
    rw [Nat.add_assoc, Text.newlines_append]
  induction first generalizing line with
  | nil =>
      simp only [List.nil_append, replacePieces, pure_bind, bind_pure]
      rfl
  | cons piece first ih =>
      cases piece with
      | char c =>
          rw [List.cons_append]
          simp only [replacePieces, ih, bind_assoc, pure_bind, List.flatMap_cons, counted,
            Piece.source]
          rfl
      | hit value source =>
          rw [List.cons_append]
          simp only [replacePieces, ih, bind_assoc, pure_bind, List.flatMap_cons, counted,
            Piece.source, List.append_assoc]

/-- Putting every match back leaves the text as it is. -/
theorem replaceM_source [LawfulMonad m] (proper : pattern.Proper) (text : Text) :
    pattern.replaceM (m := m) (fun _ _ source => pure source) text = pure text := by
  suffices pieces : ∀ line (pieces : List (Piece α)),
      replacePieces (m := m) (fun _ _ source => pure source) line pieces =
        pure (pieces.flatMap Piece.source) by
    rw [replaceM, pieces, cut_sources proper]
  intro line pieces
  induction pieces generalizing line with
  | nil => rfl
  | cons piece pieces ih => cases piece <;> simp [replacePieces, ih, Piece.source]

theorem run_replacePieces_char {σ : Type} {replace : Nat → α → Text → StateM σ Text} (line : Nat)
    (c : Char) (pieces : List (Piece α)) (state : σ) :
    (replacePieces replace line (.char c :: pieces)).run state =
      let (text, final) := (replacePieces replace (line + Text.newlines [c]) pieces).run state
      (c :: text, final) := rfl

theorem run_replacePieces_hit {σ : Type} {replace : Nat → α → Text → StateM σ Text} (line : Nat)
    (value : α) (source : Text) (pieces : List (Piece α)) (state : σ) :
    (replacePieces replace line (.hit value source :: pieces)).run state =
      let (replacement, next) := (replace line value source).run state
      let (text, final) := (replacePieces replace (line + Text.newlines source) pieces).run next
      (replacement ++ text, final) := rfl

section

variable {σ : Type} {replace : Nat → α → StateM σ Text} {pieces : List (Piece α)} {state : σ}

theorem run_splicePieces_char (line : Nat) (c : Char) (pieces : List (Piece α)) (state : σ) :
    (splicePieces replace line (.char c :: pieces)).run state =
      (c :: ((splicePieces replace (line + Text.newlines [c]) pieces).run state).1,
        ((splicePieces replace (line + Text.newlines [c]) pieces).run state).2) := rfl

theorem run_splicePieces_chars (line : Nat) (text : Text) (pieces : List (Piece α)) (state : σ) :
    (splicePieces replace line (text.map .char ++ pieces)).run state =
      (text ++ ((splicePieces replace (line + Text.newlines text) pieces).run state).1,
        ((splicePieces replace (line + Text.newlines text) pieces).run state).2) := by
  induction text generalizing line with
  | nil => rfl
  | cons c text ih =>
      rw [List.map_cons, List.cons_append, run_splicePieces_char, ih, Nat.add_assoc,
        ← Text.newlines_cons]
      rfl

theorem run_splicePieces_hit {line : Nat} {value : α} {source replacement : Text} {next : σ}
    (ran : (replace line value).run state = (replacement, next)) :
    (splicePieces replace line (.hit value source :: pieces)).run state =
      (replacement ++
          ((splicePieces replace (line + Text.newlines replacement) pieces).run next).1,
        ((splicePieces replace (line + Text.newlines replacement) pieces).run next).2) := by
  simp only [splicePieces, StateT.run_bind, ran]
  rfl

end

variable [WPMonad m ps] {inv : Text → Assertion ps}

theorem copied_invariant {next : m Text} {written : Text} {c : Char} {left : Text}
    (goesOn : ⦃inv (written ++ [c] ++ left)⦄ next ⦃⇓ result => inv (written ++ [c] ++ result)⦄) :
    ⦃inv (written ++ c :: left)⦄ (do return c :: (← next))
      ⦃⇓ result => inv (written ++ result)⦄ := by
  refine Triple.bind _ _ (Q := fun result => inv (written ++ c :: result)) ?_
    fun result => Triple.pure _ (by simp)
  simpa using goesOn

theorem replaced_invariant {first : m Text} {next : Text → m Text} {written source left : Text}
    (hit : ⦃inv (written ++ (source ++ left))⦄ first
      ⦃⇓ replacement => inv (written ++ (replacement ++ left))⦄)
    (goesOn : ∀ replacement, ⦃inv (written ++ replacement ++ left)⦄ next replacement
      ⦃⇓ result => inv (written ++ replacement ++ result)⦄) :
    ⦃inv (written ++ (source ++ left))⦄
      (do let replacement ← first; return replacement ++ (← next replacement))
    ⦃⇓ result => inv (written ++ result)⦄ := by
  refine Triple.bind _ _ hit fun replacement => ?_
  refine Triple.bind _ _ (Q := fun result => inv (written ++ (replacement ++ result))) ?_
    fun result => Triple.pure _ (by simp)
  simpa using goesOn replacement

/-- What is asserted of the text as it stands, and outlives the replacement of a match, holds at the
end. -/
theorem replaceM_invariant (proper : pattern.Proper) {replace : Nat → α → Text → m Text}
    (inv : Text → Assertion ps)
    (hit : ∀ line written source value left, pattern (source ++ left) = some (value, left) →
      ⦃inv (written ++ (source ++ left))⦄ replace line value source
      ⦃⇓ replacement => inv (written ++ (replacement ++ left))⦄) (text : Text) :
    ⦃inv text⦄ pattern.replaceM replace text ⦃⇓ result => inv result⦄ := by
  suffices steps : ∀ line written, ⦃inv (written ++ text)⦄
      replacePieces replace line (pattern.cut text) ⦃⇓ result => inv (written ++ result)⦄ from
    steps 1 []
  refine cut_induction proper (motive := fun text pieces => ∀ line written,
    ⦃inv (written ++ text)⦄ replacePieces replace line pieces
    ⦃⇓ result => inv (written ++ result)⦄) ?_ ?_ ?_ text
  · intro line written
    exact Triple.pure [] .rfl
  · intro c rest _ ih line written
    exact copied_invariant (ih _ (written ++ [c]))
  · intro source value rest _ found ih line written
    exact replaced_invariant (hit line written source value rest found)
      fun replacement => ih _ (written ++ replacement)

/-- The same where lines are counted in the text as it is written. -/
theorem spliceM_invariant (proper : pattern.Proper) {replace : Nat → α → m Text}
    (inv : Text → Assertion ps) (text : Text)
    (hit : ∀ line written source value left, .hit value source ∈ pattern.cut text →
      pattern (source ++ left) = some (value, left) →
      ⦃inv (written ++ (source ++ left))⦄ replace line value
      ⦃⇓ replacement => inv (written ++ (replacement ++ left))⦄) :
    ⦃inv text⦄ pattern.spliceM replace text ⦃⇓ result => inv result⦄ := by
  suffices steps : ∀ rest line written, pattern.cut rest ⊆ pattern.cut text →
      ⦃inv (written ++ rest)⦄ splicePieces replace line (pattern.cut rest)
      ⦃⇓ result => inv (written ++ result)⦄ from steps text 1 [] (List.Subset.refl _)
  intro rest
  refine cut_induction proper (motive := fun rest pieces => ∀ line written,
    pieces ⊆ pattern.cut text → ⦃inv (written ++ rest)⦄ splicePieces replace line pieces
    ⦃⇓ result => inv (written ++ result)⦄) ?_ ?_ ?_ rest
  · intro line written _
    exact Triple.pure [] .rfl
  · intro c rest _ ih line written inside
    exact copied_invariant (ih _ (written ++ [c]) (List.subset_of_cons_subset inside))
  · intro source value rest _ found ih line written inside
    exact replaced_invariant (hit line written source value rest (inside (by simp)) found)
      fun replacement => ih _ (written ++ replacement) (List.subset_of_cons_subset inside)

variable {σ ε : Type}

/-- In a state: what holds of the text as it stands and of the state. -/
theorem replaceM_run_invariant (proper : pattern.Proper) {replace : Nat → α → Text → StateM σ Text}
    (inv : Text → σ → Prop)
    (hit : ∀ line written source value left, pattern (source ++ left) = some (value, left) →
      ∀ state, inv (written ++ (source ++ left)) state →
      inv (written ++ (((replace line value source).run state).1 ++ left))
        ((replace line value source).run state).2)
    {text : Text} {state : σ} (start : inv text state) :
    inv ((pattern.replaceM replace text).run state).1
      ((pattern.replaceM replace text).run state).2 :=
  let assertion : Text → Assertion (.arg σ .pure) := fun text state => ⌜inv text state⌝
  replaceM_invariant (m := StateM σ) proper assertion hit text state start

theorem spliceM_run_invariant (proper : pattern.Proper) {replace : Nat → α → StateM σ Text}
    (inv : Text → σ → Prop) {text : Text} {state : σ}
    (hit : ∀ line written source value left, .hit value source ∈ pattern.cut text →
      pattern (source ++ left) = some (value, left) →
      ∀ state, inv (written ++ (source ++ left)) state →
      inv (written ++ (((replace line value).run state).1 ++ left))
        ((replace line value).run state).2)
    (start : inv text state) :
    inv ((pattern.spliceM replace text).run state).1
      ((pattern.spliceM replace text).run state).2 :=
  let assertion : Text → Assertion (.arg σ .pure) := fun text state => ⌜inv text state⌝
  spliceM_invariant (m := StateM σ) proper assertion text hit state start

/-- A triple without a condition on faults says that every run succeeds. -/
theorem triple_iff_ok {program : ExceptT ε (StateM σ) Text} {P : σ → Prop} {Q : Text → σ → Prop} :
    ⦃fun state => ⌜P state⌝⦄ program ⦃⇓ result => fun state => ⌜Q result state⌝⦄ ↔
      ∀ state, P state →
        ∃ result final, program.run.run state = (.ok result, final) ∧ Q result final := by
  refine forall_congr' fun state => imp_congr_right fun _ => ?_
  simp only [wp, PredTrans.apply_pushExcept, PredTrans.apply_pushArg]
  rcases program.run.run state with ⟨error | result, final⟩
  · exact ⟨fun holds => absurd holds id, fun ⟨_, _, same, _⟩ => by cases same⟩
  · refine ⟨fun holds => ⟨result, final, rfl, holds⟩, ?_⟩
    rintro ⟨_, _, same, holds⟩
    cases same
    exact holds

/-- In a state with faults: no run faults. -/
theorem replaceM_ok_invariant (proper : pattern.Proper)
    {replace : Nat → α → Text → ExceptT ε (StateM σ) Text} (inv : Text → σ → Prop)
    (hit : ∀ line written source value left, pattern (source ++ left) = some (value, left) →
      ∀ state, inv (written ++ (source ++ left)) state →
      ∃ replacement next, (replace line value source).run.run state = (.ok replacement, next) ∧
        inv (written ++ (replacement ++ left)) next)
    {text : Text} {state : σ} (start : inv text state) :
    ∃ result final, (pattern.replaceM replace text).run.run state = (.ok result, final) ∧
      inv result final :=
  let assertion : Text → Assertion (.except ε (.arg σ .pure)) := fun text state => ⌜inv text state⌝
  have steps := replaceM_invariant (m := ExceptT ε (StateM σ)) proper assertion
    (fun line written source value left found =>
      triple_iff_ok.mpr (hit line written source value left found)) text
  triple_iff_ok.mp steps state start

end Pattern

end Flatsheet
