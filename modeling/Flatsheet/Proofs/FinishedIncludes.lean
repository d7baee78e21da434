import Flatsheet.Proofs.Expansion
import Flatsheet.Proofs.Words

/-!
Which includes expansion leaves behind. What replaces an include is not read again, so an include
that comes about where two texts meet stays in the sheet: the keyword may stand in one of them and
the ending in the other. No include is left if every one is finished in the text in which it is
written; in particular none may wait for the closing brace that ends the body of a mixin or a
content block, for that brace is no part of the body.
-/

namespace Flatsheet

universe u

namespace Pattern

variable {α : Type u} {P P' Q Q' : Text → Prop}

/-- Of the runs of characters outside the matches, those before a match satisfy `P` and the last one
satisfies `Q`. -/
def Between (P Q : Text → Prop) : (run : Text) → List (Piece α) → Prop
  | run, [] => Q run
  | run, .char c :: pieces => Between P Q (run ++ [c]) pieces
  | run, .hit _ _ :: pieces => P run ∧ Between P Q [] pieces

instance Between.decidable [DecidablePred P] [DecidablePred Q] :
    (run : Text) → (pieces : List (Piece α)) → Decidable (Between P Q run pieces)
  | run, [] => inferInstanceAs (Decidable (Q run))
  | run, .char c :: pieces => Between.decidable (run ++ [c]) pieces
  | run, .hit _ _ :: pieces =>
      @instDecidableAnd _ _ (inferInstanceAs (Decidable (P run))) (Between.decidable [] pieces)

theorem Between.mono {run : Text} {pieces : List (Piece α)} (between : Between P Q run pieces)
    (before : ∀ run, P run → P' run) (last : ∀ run, Q run → Q' run) :
    Between P' Q' run pieces := by
  induction pieces generalizing run with
  | nil => exact last run between
  | cons piece pieces ih =>
      cases piece with
      | char c => exact ih between
      | hit value source => exact ⟨before run between.1, ih between.2⟩

theorem Between.splicePieces {σ : Type} {replace : Nat → α → StateM σ Text} {run : Text}
    {pieces : List (Piece α)} (holds : σ → Prop) (between : Between P Q run pieces)
    (join : ∀ front rest, P front → Q rest → Q (front ++ rest))
    (hit : ∀ line value source state, .hit value source ∈ pieces → holds state →
      P ((replace line value).run state).1 ∧ holds ((replace line value).run state).2)
    (line : Nat) {state : σ} (start : holds state) :
    Q (run ++ ((splicePieces replace line pieces).run state).1) := by
  induction pieces generalizing run line state with
  | nil =>
      change Q (run ++ [])
      rw [List.append_nil]
      exact between
  | cons piece pieces ih =>
      have later {state : σ} {run : Text} (between : Between P Q run pieces) (line : Nat)
          (start : holds state) := ih between
        (fun line value source state member => hit line value source state (by simp [member]))
        line start
      cases piece with
      | char c =>
          rw [run_splicePieces_char]
          simpa using later between _ start
      | hit value source =>
          obtain ⟨replaced, next⟩ := hit line value source state (by simp) start
          rcases ran : (replace line value).run state with ⟨replacement, after⟩
          rw [ran] at replaced next
          rw [run_splicePieces_hit ran]
          exact join _ _ between.1 (join _ _ replaced (later between.2 _ next))

end Pattern

namespace Include

open Pattern

/-- No include stands in the text. -/
def Absent (text : Text) : Prop := ∀ rest, rest <:+ text → include? rest = none

instance (text : Text) : Decidable (Absent text) :=
  decidable_of_iff (∀ rest ∈ text.tails, include? rest = none) (by simp [Absent])

/-- No include begins in the text, whatever comes after it. -/
def Settled (text : Text) : Prop :=
  ∀ start, start <:+ text → start ≠ [] → ∀ after, include? (start ++ after) = none

theorem include?_nil : include? [] = none := rfl

theorem include?_of_ne {c : Char} (other : c ≠ '@') (text : Text) : include? (c :: text) = none := by
  rw [Option.eq_none_iff_forall_ne_some]
  rintro ⟨inclusion, rest⟩ found
  obtain ⟨blanks, written, gap, after, _, _, _, _, _, shape⟩ := include?_eq_some found
  exact other (by simpa using congrArg List.head? shape)

namespace Settled

theorem append {front rest : Text} (first : Settled front) (second : Settled rest) :
    Settled (front ++ rest) := by
  intro start suffix nonempty after
  rcases Text.suffix_append suffix with inside | ⟨left, inside, some, rfl⟩
  · exact second start inside nonempty after
  · rw [List.append_assoc]
    exact first left inside some (rest ++ after)

theorem of_suffix {text rest : Text} (settled : Settled text) (suffix : rest <:+ text) :
    Settled rest := fun start inside => settled start (inside.trans suffix)

theorem of_not_mem {text : Text} (absent : '@' ∉ text) : Settled text := by
  intro start suffix nonempty after
  obtain ⟨c, left, rfl⟩ := List.exists_cons_of_ne_nil nonempty
  refine include?_of_ne ?_ _
  rintro rfl
  exact absent (suffix.subset (by simp))

theorem absent_append {front rest : Text} (settled : Settled front) (absent : Absent rest) :
    Absent (front ++ rest) := by
  intro start suffix
  rcases Text.suffix_append suffix with inside | ⟨left, inside, some, rfl⟩
  · exact absent start inside
  · exact settled left inside some rest

end Settled

/-- The last run of a text that includes are cut out of holds no include. -/
theorem between_absent {P : Text → Prop} {text : Text}
    (between : Between P (fun _ => True) [] (include?.cut text)) :
    Between P Absent [] (include?.cut text) := by
  suffices runs : ∀ run, (∀ start, start <:+ run → start ≠ [] → include? (start ++ text) = none) →
      Between P (fun _ => True) run (include?.cut text) →
      Between P Absent run (include?.cut text) from
    runs [] (fun _ suffix nonempty => absurd (List.suffix_nil.mp suffix) nonempty) between
  clear between
  refine cut_induction include?_whole.proper (motive := fun text pieces => ∀ run,
    (∀ start, start <:+ run → start ≠ [] → include? (start ++ text) = none) →
    Between P (fun _ => True) run pieces → Between P Absent run pieces) ?_ ?_ ?_ text
  · intro run missed _ rest suffix
    cases rest with
    | nil => exact include?_nil
    | cons c rest => simpa using missed (c :: rest) suffix (by simp)
  · intro c rest none ih run missed between
    refine ih (run ++ [c]) ?_ between
    intro start suffix nonempty
    rcases Text.suffix_append suffix with inside | ⟨left, inside, some, rfl⟩
    · rcases List.suffix_cons_iff.mp inside with rfl | inside
      · exact none
      · exact absurd (List.suffix_nil.mp inside) nonempty
    · simpa using missed left inside some
  · intro source inclusion rest _ _ ih run _ between
    exact ⟨between.1, ih [] (fun _ suffix nonempty =>
      absurd (List.suffix_nil.mp suffix) nonempty) between.2⟩

/-- No include has begun, and not ended, at the end of the text or before a marked character: texts
are put in at these places. -/
structure Steady (mark : Char → Bool) (text : Text) : Prop where
  ends : Settled text
  marked : ∀ before c after, text = before ++ c :: after → mark c = true → Settled before

namespace Steady

variable {mark : Char → Bool}

theorem of_not_mem {text : Text} (absent : '@' ∉ text) : Steady mark text := by
  refine ⟨.of_not_mem absent, ?_⟩
  rintro before c after rfl _
  exact .of_not_mem fun member => absent (by simp [member])

theorem nil : Steady mark [] := .of_not_mem (by simp)

theorem append {front rest : Text} (first : Steady mark front) (second : Steady mark rest) :
    Steady mark (front ++ rest) := by
  refine ⟨first.ends.append second.ends, ?_⟩
  intro before c after split marks
  rcases List.append_eq_append_iff.mp split with ⟨left, rfl, inside⟩ | ⟨left, outside, inside⟩
  · exact first.ends.append (second.marked left c after inside marks)
  · cases left with
    | nil =>
        have whole : front = before := by simpa using outside
        exact whole ▸ first.ends
    | cons d left =>
        obtain ⟨rfl, _⟩ := List.cons.inj inside
        exact first.marked before c left outside marks

theorem of_suffix {text rest : Text} (steady : Steady mark text) (suffix : rest <:+ text) :
    Steady mark rest := by
  refine ⟨steady.ends.of_suffix suffix, ?_⟩
  rintro before c after rfl marks
  obtain ⟨front, rfl⟩ := suffix
  exact (steady.marked (front ++ before) c after (by simp) marks).of_suffix ⟨front, rfl⟩

theorem join {separator : Text} {parts : List Text} (between : Steady mark separator)
    (each : ∀ part ∈ parts, Steady mark part) : Steady mark (Text.join separator parts) := by
  induction parts with
  | nil => exact nil
  | cons part parts ih =>
      have first := each part (by simp)
      have later := ih fun other member => each other (by simp [member])
      cases parts with
      | nil => simpa using first
      | cons next parts =>
          rw [Text.join_cons_cons]
          exact first.append (between.append later)

theorem before_marked {front rest : Text} {c : Char} (steady : Steady mark (front ++ c :: rest))
    (marks : mark c = true) : Steady mark front := by
  refine ⟨steady.marked front c rest rfl marks, ?_⟩
  rintro before d after rfl marks
  exact steady.marked before d (after ++ c :: rest) (by simp) marks

end Steady

theorem contentSlot?_steady {mark : Char → Bool} {content text : Text} (slots : mark '@' = true)
    (inner : Steady mark content) (outer : Steady mark text) :
    Steady mark (contentSlot?.replace (fun _ => content) text) := by
  refine replace_invariant contentSlot?_whole.proper (Steady mark) ?_ outer
  intro written source _ left found steady
  obtain ⟨gap, ending, _, _, shape⟩ := contentSlot?_eq_some found
  have before : Steady mark written := by
    rw [shape] at steady
    exact steady.before_marked slots
  have after : Steady mark left := steady.of_suffix ⟨written ++ source, by simp⟩
  exact before.append (inner.append after)

def keyword : Text := "@include"

/-- The keyword neither stands in the text nor begins at its end. -/
def isApart (text : Text) : Bool :=
  text.tails.all fun start =>
    start.isEmpty || !(start.isPrefixOf keyword || keyword.isPrefixOf start)

theorem Settled.of_isApart {text : Text} (apart : isApart text = true) : Settled text := by
  intro start suffix nonempty after
  rw [Option.eq_none_iff_forall_ne_some]
  rintro ⟨inclusion, rest⟩ found
  obtain ⟨blanks, written, gap, left, _, _, _, _, _, shape⟩ := include?_eq_some found
  have parted := List.all_eq_true.mp apart start ((List.mem_tails _ _).mpr suffix)
  have begins : keyword <+: start ++ after := by
    rw [shape]
    simp only [List.append_assoc]
    exact List.prefix_append _ _
  have compared : start <+: keyword ∨ keyword <+: start :=
    List.prefix_or_prefix_of_prefix (List.prefix_append start after) begins
  simp only [Bool.or_eq_true, List.isEmpty_iff, nonempty, false_or, Bool.not_eq_true',
    ← Bool.not_eq_true, List.isPrefixOf_iff_prefix] at parted
  exact parted compared

def isSteadyFrom (mark : Char → Bool) : (run : Text) → Text → Bool
  | run, [] => isApart run
  | run, c :: text => (!mark c || isApart run) && isSteadyFrom mark (run ++ [c]) text

theorem Steady.of_isSteadyFrom {mark : Char → Bool} {run text : Text}
    (steady : isSteadyFrom mark run text = true) :
    Settled (run ++ text) ∧ ∀ before c after, text = before ++ c :: after → mark c = true →
      Settled (run ++ before) := by
  induction text generalizing run with
  | nil => exact ⟨by simpa using Settled.of_isApart steady, by simp⟩
  | cons d text ih =>
      rw [isSteadyFrom, Bool.and_eq_true, Bool.or_eq_true] at steady
      obtain ⟨ends, marked⟩ := ih steady.2
      refine ⟨by simpa using ends, ?_⟩
      intro before c after split marks
      cases before with
      | nil =>
          obtain ⟨rfl, _⟩ : d = c ∧ text = after := by simpa using split
          have apart : isApart run = true := by simpa [marks] using steady.1
          simpa using Settled.of_isApart apart
      | cons e before =>
          obtain ⟨rfl, rfl⟩ : d = e ∧ text = before ++ c :: after := by simpa using split
          simpa using marked before c after rfl marks

def isSteady (mark : Char → Bool) (text : Text) : Bool := isSteadyFrom mark [] text

theorem Steady.of_isSteady {mark : Char → Bool} {text : Text}
    (steady : isSteady mark text = true) : Steady mark text :=
  let ⟨ends, marked⟩ := of_isSteadyFrom steady
  ⟨ends, marked⟩

end Include

namespace Binding

open Include

/-- Names begin with marked characters, and values are steady. The empty name begins with any. -/
structure Quiet (mark : Char → Bool) (binding : Binding) : Prop where
  names : ∀ entry ∈ binding.entries, ∀ c, entry.1.head?.all (· == c) = true → mark c = true
  values : binding.All (Steady mark)

variable {mark : Char → Bool} {binding : Binding}

theorem Quiet.applyFrom_steady (quiet : binding.Quiet mark) {front text : Text}
    (steady : Steady mark (front ++ text)) (afterWord : Bool) :
    Steady mark (front ++ binding.applyFrom afterWord 0 text) := by
  induction size : text.length using Nat.strongRecOn generalizing front text afterWord with
  | ind length ih =>
      subst size
      cases text with
      | nil =>
          rw [applyFrom]
          split
          next name value found =>
              obtain ⟨_, found⟩ := Option.ite_none_left_eq_some.mp found
              have before : Steady mark front := by simpa using steady
              exact before.append (quiet.values _ (nameAt?_eq_some found).1)
          · exact steady
      | cons c text =>
          have copied (front : Text) (steady : Steady mark (front ++ c :: text)) :
              Steady mark (front ++ c :: binding.applyFrom (isWord c) 0 text) := by
            have kept := @ih text.length (by simp) (front ++ [c]) text (by simpa using steady)
              (isWord c) rfl
            simpa using kept
          have before (entry : Text × Text) (member : entry ∈ binding.entries)
              (begins : entry.1.head?.all (· == c) = true) : Steady mark front :=
            steady.before_marked (quiet.names entry member c begins)
          rw [applyFrom]
          split
          next value found =>
              obtain ⟨_, found⟩ := Option.ite_none_left_eq_some.mp found
              obtain ⟨member, _⟩ := nameAt?_eq_some found
              have after := copied [] (steady.of_suffix ⟨front, rfl⟩)
              exact (before _ member rfl).append ((quiet.values _ member).append after)
          next first name value found =>
              obtain ⟨_, found⟩ := Option.ite_none_left_eq_some.mp found
              obtain ⟨member, stands⟩ := nameAt?_eq_some found
              obtain ⟨rest, split, _⟩ := split_of_standsAt stands
              obtain ⟨rfl, rfl⟩ : c = first ∧ text = name ++ rest := by simpa using split
              have dropped := applyFrom_covered binding (isWord c) name rest
              have left : Steady mark rest := steady.of_suffix ⟨front ++ c :: name, by simp⟩
              have shorter : rest.length < (c :: (name ++ rest)).length := by
                rw [List.length_cons, List.length_append]
                omega
              have after := @ih rest.length shorter [] rest left (endsInWord (isWord c) name) rfl
              rw [dropped]
              exact (before _ member (by simp)).append ((quiet.values _ member).append after)
          · exact copied front steady

theorem Quiet.ofArguments {parameters : List Parameter} {arguments : List Text}
    (marked : ∀ parameter ∈ parameters, ∀ c,
      parameter.placeholder.head?.all (· == c) = true → mark c = true)
    (defaults : ∀ parameter ∈ parameters, ∀ value ∈ parameter.default, Steady mark value)
    (argued : ∀ argument ∈ arguments, Steady mark argument) :
    (Binding.ofArguments parameters arguments).Quiet mark := by
  have each (entry : Text × Text)
      (member : entry ∈ (Binding.ofArguments parameters arguments).entries) :=
    mem_ofArguments (.of_not_mem (by decide : '@' ∉ initialValue)) defaults argued
      (fun _ steady => .join (.of_not_mem (by decide)) steady) member
  refine ⟨fun entry member => ?_, fun entry member => (each entry member).2⟩
  obtain ⟨⟨parameter, listed, name⟩, _⟩ := each entry member
  rw [name]
  exact marked parameter listed

end Binding

namespace Expansion

open Pattern Include

/-- The characters with which a content slot or the name of a parameter may begin. -/
def Scope.marks (scope : Scope) (c : Char) : Bool :=
  c == '@' || scope.mixins.entries.any fun entry =>
    entry.2.parameters.any fun parameter => parameter.placeholder.head?.all (· == c)

/-- Every include of the text is finished in it, and those of its content blocks in them: between
includes the text is steady. So are the arguments. -/
inductive Finished (scope : Scope) : Text → Prop
  | intro {text : Text}
      (between : Between (Steady scope.marks) (Steady scope.marks) [] (include?.cut text))
      (arguments : ∀ inclusion source, .hit inclusion source ∈ include?.cut text →
        ∀ argument ∈ argumentsOf scope.globals inclusion.arguments, Steady scope.marks argument)
      (contents : ∀ inclusion source, .hit inclusion source ∈ include?.cut text →
        Finished scope (inclusion.content.getD [])) : Finished scope text

/-- The same for a whole sheet, of which nothing is put elsewhere: its last include may be
unfinished. -/
structure FinishedSheet (scope : Scope) (text : Text) : Prop where
  between : Between Settled (fun _ => True) [] (include?.cut text)
  arguments : ∀ inclusion source, .hit inclusion source ∈ include?.cut text →
    ∀ argument ∈ argumentsOf scope.globals inclusion.arguments, Steady scope.marks argument
  contents : ∀ inclusion source, .hit inclusion source ∈ include?.cut text →
    Finished scope (inclusion.content.getD [])

structure Scope.Finished (scope : Scope) : Prop where
  bodies : scope.mixins.All fun mixin => Expansion.Finished scope mixin.body
  defaults : scope.mixins.All fun mixin =>
    ∀ parameter ∈ mixin.parameters, ∀ value ∈ parameter.default, Steady scope.marks value

variable {scope : Scope}

theorem Finished.sheet {text : Text} (finished : Finished scope text) : FinishedSheet scope text :=
  let ⟨between, arguments, contents⟩ := finished
  ⟨between.mono (fun _ steady => steady.ends) (fun _ _ => trivial), arguments, contents⟩

/-- Looks into content blocks that nest less than `depth` deep. -/
def isFinished (scope : Scope) : (depth : Nat) → Text → Bool
  | 0, _ => false
  | depth + 1, text =>
      decide (Between (isSteady scope.marks · = true) (isSteady scope.marks · = true) []
        (include?.cut text)) &&
      (include?.cut text).all fun
        | .char _ => true
        | .hit inclusion _ =>
            (argumentsOf scope.globals inclusion.arguments).all (isSteady scope.marks) &&
              isFinished scope depth (inclusion.content.getD [])

theorem Finished.of_isFinished {depth : Nat} {text : Text}
    (finished : isFinished scope depth text = true) : Finished scope text := by
  induction depth generalizing text with
  | zero => cases finished
  | succ depth ih =>
      rw [isFinished, Bool.and_eq_true, decide_eq_true_eq, List.all_eq_true] at finished
      obtain ⟨between, hits⟩ := finished
      have hit (inclusion : Include) (source : Text)
          (found : .hit inclusion source ∈ include?.cut text) :
          (argumentsOf scope.globals inclusion.arguments).all (isSteady scope.marks) = true ∧
            isFinished scope depth (inclusion.content.getD []) = true :=
        Bool.and_eq_true_iff.mp (hits (.hit inclusion source) found)
      refine ⟨between.mono (fun _ => .of_isSteady) (fun _ => .of_isSteady), ?_, ?_⟩
      · intro inclusion source found argument listed
        exact .of_isSteady (List.all_eq_true.mp (hit inclusion source found).1 argument listed)
      · intro inclusion source found
        exact ih (hit inclusion source found).2

def Scope.isFinished (scope : Scope) (depth : Nat) : Bool :=
  scope.mixins.entries.all fun entry =>
    Expansion.isFinished scope depth entry.2.body &&
      entry.2.parameters.all fun parameter => parameter.default.all (isSteady scope.marks)

theorem Scope.Finished.of_isFinished {depth : Nat} (finished : scope.isFinished depth = true) :
    scope.Finished := by
  have each (entry : Text × Mixin) (member : entry ∈ scope.mixins.entries) :=
    Bool.and_eq_true_iff.mp (List.all_eq_true.mp finished entry member)
  refine ⟨fun entry member => .of_isFinished (each entry member).1, ?_⟩
  intro entry member parameter listed value given
  have steady := List.all_eq_true.mp (each entry member).2 parameter listed
  rw [Option.mem_def.mp given] at steady
  exact .of_isSteady steady

theorem bindArguments_steady {mixin : Mixin} {key body : Text} {arguments : List Text}
    (finished : scope.Finished) (known : scope.mixins.get? key = some mixin)
    (steady : Steady scope.marks body)
    (argued : ∀ argument ∈ arguments, Steady scope.marks argument) :
    Steady scope.marks (bindArguments body mixin.parameters arguments) := by
  have marked : ∀ parameter ∈ mixin.parameters, ∀ c,
      parameter.placeholder.head?.all (· == c) = true → scope.marks c = true := by
    intro parameter member c begins
    rw [Scope.marks, Bool.or_eq_true]
    exact .inr (List.any_eq_true.mpr ⟨_, Table.mem_of_get?_eq_some known,
      List.any_eq_true.mpr ⟨parameter, member, begins⟩⟩)
  have quiet := Binding.Quiet.ofArguments marked (finished.defaults.get? known) argued
  exact @Binding.Quiet.applyFrom_steady _ _ quiet [] body steady false

theorem expandInclude_steady {inclusion : Include} {state : State} {guard : List Text}
    (finished : scope.Finished)
    (argued : ∀ argument ∈ argumentsOf scope.globals inclusion.arguments,
      Steady scope.marks argument)
    (same : state.guard = guard)
    (contents : ∀ mixin, Mixin.key inclusion.name ∉ guard →
      scope.mixins.get? (Mixin.key inclusion.name) = some mixin → ∀ notices, Steady scope.marks
        ((expandWithin scope (inclusion.content.getD [])).run ⟨guard, notices⟩).1)
    (bodies : ∀ mixin, Mixin.key inclusion.name ∉ guard →
      scope.mixins.get? (Mixin.key inclusion.name) = some mixin → ∀ notices, Steady scope.marks
        ((expandWithin scope mixin.body).run ⟨Mixin.key inclusion.name :: guard, notices⟩).1)
    (line : Option Int) :
    Steady scope.marks ((expandInclude scope (expandWithin scope) (expandWithin scope) line
      inclusion).run state).1 :=
  expandInclude_induction same .nil contents bodies (fun _ _ _ known content body =>
    contentSlot?_steady rfl content (bindArguments_steady finished known body argued)) line

/-- Inside includes, a finished text becomes a steady one. The tasks that follow are dealt with
before: contents are finished with the text, bodies with the scope. -/
theorem expandWithin_steady (finished : scope.Finished) (task : Task)
    (text : Expansion.Finished scope task.text) (notices : List Notice) :
    Steady scope.marks ((expandWithin scope task.text).run ⟨task.guard, notices⟩).1 := by
  induction task using (wellFounded_calls scope).induction generalizing notices with
  | _ task ih =>
      obtain ⟨between, arguments, contents⟩ := text
      rw [run_expandWithin]
      refine between.splicePieces (fun next : State => next.guard = task.guard)
        (fun _ _ first second => first.append second) ?_ 1 rfl
      intro line inclusion source state found same
      refine ⟨expandInclude_steady finished (arguments inclusion source found) same ?_ ?_ none,
        by rw [restores_expandInclude restores_expandWithin restores_expandWithin, same]⟩
      · intro mixin free known notices
        exact ih _ (.content found free known) (contents inclusion source found) notices
      · intro mixin free known notices
        exact ih _ (.body found free known) (finished.bodies.get? known) notices

/-- No include is left in a sheet if every include is finished in the text in which it is written:
in the sheet, in the bodies of the mixins, in the content blocks and in the arguments. -/
theorem expandAll_absent {text : Text} (finished : scope.Finished)
    (sheet : FinishedSheet scope text) (state : State) :
    Absent ((expandAll scope text).run state).1 := by
  rw [run_expandAll]
  refine (between_absent sheet.between).splicePieces (fun next : State => next.guard = state.guard)
    (fun _ _ first second => first.absent_append second) ?_ 1 rfl
  intro line inclusion source next found same
  refine ⟨(expandInclude_steady finished (sheet.arguments inclusion source found) same ?_ ?_
    (some line)).ends, by
      rw [restores_expandInclude restores_expandWithin restores_expandWithin, same]⟩
  · intro mixin _ _ notices
    exact expandWithin_steady finished ⟨_, state.guard⟩ (sheet.contents inclusion source found)
      notices
  · intro mixin _ known notices
    exact expandWithin_steady finished ⟨_, Mixin.key inclusion.name :: state.guard⟩
      (finished.bodies.get? known) notices

/-- An include in a body and one in a content block, both inside a rule, and one that ends before
the brace of its rule. -/
theorem expandAll_absent_nested :
    let scope : Scope := ⟨Table.ofList [("n".toList, ⟨"n", [], " x: y; "⟩),
      ("m".toList, ⟨"m", [⟨"$p", some "1px"⟩],
        " @media (min-width: $p) \x7b @include n; @content; \x7d "⟩)], Table.empty⟩
    let sheet : Text :=
      "a \x7b @include m(2px) \x7b b \x7b @include n \x7d \x7d @include n \x7d".toList
    scope.Finished ∧ FinishedSheet scope sheet ∧
      Absent ((expandAll scope sheet).run ⟨[], []⟩).1 := by
  intro scope sheet
  have finished : scope.Finished := .of_isFinished (by decide +kernel : scope.isFinished 2 = true)
  have whole : FinishedSheet scope sheet :=
    (Finished.of_isFinished (by decide +kernel : isFinished scope 3 sheet = true)).sheet
  exact ⟨finished, whole, expandAll_absent finished whole ⟨[], []⟩⟩

/-- What becomes of the includes of a sheet that defines its own mixins. -/
def expandSheet (source : Text) : Text :=
  let registered := (Mixin.registerAll source).run (Table.empty, [])
  ((expandAll ⟨registered.2.1, Table.empty⟩ registered.1).run ⟨[], []⟩).1

/-- Includes that are left: one at the end of a body, one at the end of a content block, and one
that an argument brings in. -/
theorem not_absent_expandSheet :
    let block : Text := "@mixin n \x7b x: y; \x7d ".toList
    ¬ Absent (expandSheet (block ++
        "@mixin m \x7b @include n \x7d a \x7b @include m; \x7d".toList)) ∧
      ¬ Absent (expandSheet (block ++
        "@mixin m \x7b @content \x7d a \x7b @include m \x7b @include n \x7d \x7d".toList)) ∧
      ¬ Absent (expandSheet (block ++
        "@mixin m($p) \x7b $p; \x7d a \x7b @include m(@include n); \x7d".toList)) := by
  decide +kernel

end Expansion

end Flatsheet
