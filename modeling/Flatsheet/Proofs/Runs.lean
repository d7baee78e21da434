import Flatsheet.Proofs.Replacement

/-!
Runs of programs that have a state and may fault: one run step by step, what a run keeps, and two
runs side by side. Two programs are alike when, from related states, they come to the same end and
to related states.
-/

namespace Flatsheet

universe u

variable {ε σ α β : Type}

section

variable {first : ExceptT ε (StateM σ) α} {next : α → ExceptT ε (StateM σ) β} {state final : σ}

theorem run_bind_of_ok {value : α} (ran : first.run.run state = (.ok value, final)) :
    (first >>= next).run.run state = (next value).run.run final := by
  rw [ExceptT.run_bind, StateT.run_bind, ran]
  rfl

theorem run_bind_of_error {error : ε} (ran : first.run.run state = (.error error, final)) :
    (first >>= next).run.run state = (.error error, final) := by
  rw [ExceptT.run_bind, StateT.run_bind, ran]
  rfl

theorem run_bind_eq_ok {value : β} (ran : (first >>= next).run.run state = (.ok value, final)) :
    ∃ result middle, first.run.run state = (.ok result, middle) ∧
      (next result).run.run middle = (.ok value, final) := by
  rcases start : first.run.run state with ⟨error | result, middle⟩
  · rw [run_bind_of_error start] at ran
    cases ran
  · rw [run_bind_of_ok start] at ran
    exact ⟨result, middle, rfl, ran⟩

end

theorem run_replacePieces_chars {γ : Type u} {pieces : List (Piece γ)}
    {replace : Nat → γ → Text → ExceptT ε (StateM σ) Text} {line : Nat} {result : Text}
    {state final : σ} (text : Text)
    (ran : (Pattern.replacePieces replace (line + Text.newlines text) pieces).run.run state =
      (.ok result, final)) :
    (Pattern.replacePieces replace line (text.map .char ++ pieces)).run.run state =
      (.ok (text ++ result), final) := by
  induction text generalizing line with
  | nil => exact ran
  | cons c text ih =>
      rw [Text.newlines_cons, ← Nat.add_assoc] at ran
      rw [List.map_cons, List.cons_append, Pattern.replacePieces, run_bind_of_ok (ih ran)]
      rfl

/-- From where `reached` holds, the program ends where it holds, or faults as `faulted` says. -/
def Keeps (reached : σ → Prop) (faulted : ε → σ → Prop) (program : ExceptT ε (StateM σ) α) :
    Prop :=
  ∀ ⦃state⦄, reached state →
    (∃ value final, program.run.run state = (.ok value, final) ∧ reached final) ∨
      ∃ error final, program.run.run state = (.error error, final) ∧ faulted error final

namespace Keeps

variable {reached : σ → Prop} {faulted : ε → σ → Prop}

theorem pure (value : α) : Keeps reached faulted (pure value) :=
  fun state holds => .inl ⟨value, state, rfl, holds⟩

/-- What is kept even by a fault is kept in the last state, however the program ends. -/
theorem iff_last {program : ExceptT ε (StateM σ) α} :
    Keeps reached (fun _ => reached) program ↔
      ∀ ⦃state⦄, reached state → reached (program.run.run state).2 := by
  constructor
  · intro keeps state holds
    rcases keeps holds with ⟨value, final, ran, kept⟩ | ⟨error, final, ran, kept⟩
    · rwa [ran]
    · rwa [ran]
  · intro last state holds
    have kept := last holds
    rcases ran : program.run.run state with ⟨error | value, final⟩
    · rw [ran] at kept
      exact .inr ⟨error, final, rfl, kept⟩
    · rw [ran] at kept
      exact .inl ⟨value, final, rfl, kept⟩

theorem bind {first : ExceptT ε (StateM σ) α} {next : α → ExceptT ε (StateM σ) β}
    (start : Keeps reached faulted first) (rest : ∀ value, Keeps reached faulted (next value)) :
    Keeps reached faulted (first >>= next) := by
  intro state holds
  rcases start holds with ⟨value, middle, ran, kept⟩ | ⟨error, final, ran, fault⟩
  · rw [run_bind_of_ok ran]
    exact rest value kept
  · rw [run_bind_of_error ran]
    exact .inr ⟨error, final, rfl, fault⟩

theorem replacePieces {γ : Type u} {pieces : List (Piece γ)}
    {replace : Nat → γ → Text → ExceptT ε (StateM σ) Text}
    (hit : ∀ line value source, .hit value source ∈ pieces →
      Keeps reached faulted (replace line value source)) (line : Nat) :
    Keeps reached faulted (Pattern.replacePieces replace line pieces) := by
  induction pieces generalizing line with
  | nil => exact .pure []
  | cons piece pieces ih =>
      have later := ih fun line value source member => hit line value source (by simp [member])
      cases piece with
      | char c => exact (later _).bind fun rest => .pure (c :: rest)
      | hit value source =>
          exact (hit line value source (by simp)).bind fun replacement =>
            (later _).bind fun rest => .pure (replacement ++ rest)

/-- A replacement keeps what it keeps at every match. -/
theorem replaceM {γ : Type u} {pattern : Pattern γ} (proper : pattern.Proper) {text : Text}
    {replace : Nat → γ → Text → ExceptT ε (StateM σ) Text}
    (hit : ∀ line before source value rest, text = before ++ (source ++ rest) →
      pattern (source ++ rest) = some (value, rest) →
      Keeps reached faulted (replace line value source)) :
    Keeps reached faulted (pattern.replaceM replace text) := by
  refine replacePieces (fun line value source member => ?_) 1
  obtain ⟨before, rest, split, found⟩ := Pattern.split_of_mem_cut proper member
  exact hit line before source value rest split found

end Keeps

/-- From related states both programs come to the same end, and to related states. -/
def Alike (related : σ → σ → Prop) (one two : ExceptT ε (StateM σ) α) : Prop :=
  ∀ ⦃left right⦄, related left right →
    (one.run.run left).1 = (two.run.run right).1 ∧
      related (one.run.run left).2 (two.run.run right).2

namespace Alike

variable {related : σ → σ → Prop}

theorem pure (value : α) : Alike related (pure value : ExceptT ε (StateM σ) α) (pure value) :=
  fun _ _ holds => ⟨rfl, holds⟩

theorem throw (error : ε) : Alike related (throw error : ExceptT ε (StateM σ) α) (throw error) :=
  fun _ _ holds => ⟨rfl, holds⟩

theorem bind {one two : ExceptT ε (StateM σ) α} {next after : α → ExceptT ε (StateM σ) β}
    (first : Alike related one two) (rest : ∀ value, Alike related (next value) (after value)) :
    Alike related (one >>= next) (two >>= after) := by
  intro left right holds
  obtain ⟨same, middle⟩ := first holds
  rcases ran : one.run.run left with ⟨error | value, leftward⟩
  · rcases again : two.run.run right with ⟨error' | value', rightward⟩
    · rw [ran, again] at same middle
      obtain rfl : error = error' := Except.error.inj same
      rw [run_bind_of_error ran, run_bind_of_error again]
      exact ⟨rfl, middle⟩
    · rw [ran, again] at same
      cases same
  · rcases again : two.run.run right with ⟨error' | value', rightward⟩
    · rw [ran, again] at same
      cases same
    · rw [ran, again] at same middle
      obtain rfl : value = value' := Except.ok.inj same
      rw [run_bind_of_ok ran, run_bind_of_ok again]
      exact rest value middle

theorem replacePieces {γ : Type u} {pieces : List (Piece γ)}
    {one two : Nat → γ → Text → ExceptT ε (StateM σ) Text}
    (hit : ∀ line value source, .hit value source ∈ pieces →
      Alike related (one line value source) (two line value source)) (line : Nat) :
    Alike related (Pattern.replacePieces one line pieces)
      (Pattern.replacePieces two line pieces) := by
  induction pieces generalizing line with
  | nil => exact .pure []
  | cons piece pieces ih =>
      have later := ih fun line value source member => hit line value source (by simp [member])
      cases piece with
      | char c => exact (later _).bind fun rest => .pure (c :: rest)
      | hit value source =>
          exact (hit line value source (by simp)).bind fun replacement =>
            (later _).bind fun rest => .pure (replacement ++ rest)

/-- Replacements are alike if they are so at every match. -/
theorem replaceM {γ : Type u} {pattern : Pattern γ} (proper : pattern.Proper) {text : Text}
    {one two : Nat → γ → Text → ExceptT ε (StateM σ) Text}
    (hit : ∀ line before source value rest, text = before ++ (source ++ rest) →
      pattern (source ++ rest) = some (value, rest) →
      Alike related (one line value source) (two line value source)) :
    Alike related (pattern.replaceM one text) (pattern.replaceM two text) := by
  refine replacePieces (fun line value source member => ?_) 1
  obtain ⟨before, rest, split, found⟩ := Pattern.split_of_mem_cut proper member
  exact hit line before source value rest split found

end Alike

end Flatsheet
