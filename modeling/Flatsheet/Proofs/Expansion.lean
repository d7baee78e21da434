import Flatsheet.Proofs.IntactMixins

/-!
Expansion comes to an end. The definitions of expansion count how deep content blocks and mixins may
nest. Here the counting is taken away: expansion is the one solution of a recursion without bounds.
The expansion of a text asks for that of a content block, which is shorter than the text, or of a
mixin body, inside a mixin that was not in the guard before; so the tasks that follow from one
another are well-founded. The guard is afterwards what it was before.
-/

namespace Flatsheet

universe u

namespace Pattern

variable {α : Type u} {σ : Type} {one two : Nat → α → StateM σ Text} {pieces : List (Piece α)}
  {state : σ}

theorem splicePieces_kept (holds : σ → Prop)
    (kept : ∀ line value source state, .hit value source ∈ pieces → holds state →
      holds ((one line value).run state).2) (line : Nat) (start : holds state) :
    holds ((splicePieces one line pieces).run state).2 := by
  induction pieces generalizing line state with
  | nil => exact start
  | cons piece pieces ih =>
      have later {state : σ} := @ih state fun line value source state member =>
        kept line value source state (by simp [member])
      cases piece with
      | char c => exact later _ start
      | hit value source =>
          have next := kept line value source state (by simp) start
          rcases ran : (one line value).run state with ⟨replacement, after⟩
          rw [ran] at next
          rw [run_splicePieces_hit ran]
          exact later _ next

theorem run_splicePieces_congr (holds : σ → Prop)
    (same : ∀ line value source state, .hit value source ∈ pieces → holds state →
      (one line value).run state = (two line value).run state)
    (kept : ∀ line value source state, .hit value source ∈ pieces → holds state →
      holds ((two line value).run state).2) (line : Nat) (start : holds state) :
    (splicePieces one line pieces).run state = (splicePieces two line pieces).run state := by
  induction pieces generalizing line state with
  | nil => rfl
  | cons piece pieces ih =>
      have later {state : σ} := @ih state
        (fun line value source state member => same line value source state (by simp [member]))
        (fun line value source state member => kept line value source state (by simp [member]))
      cases piece with
      | char c => rw [run_splicePieces_char, run_splicePieces_char, later _ start]
      | hit value source =>
          have equal := same line value source state (by simp) start
          have next := kept line value source state (by simp) start
          rcases ran : (two line value).run state with ⟨replacement, after⟩
          rw [ran] at equal next
          rw [run_splicePieces_hit equal, run_splicePieces_hit ran, later _ next]

end Pattern

namespace Expansion

open Pattern

variable {scope : Scope}

section

variable {expandContent expandBody : Text → StateM State Text} {line : Option Int}
  {inclusion : Include} {state : State}

theorem run_expandInclude_of_runs {mixin : Mixin} {content body : Text} {outside inside : State}
    (free : Mixin.key inclusion.name ∉ state.guard)
    (known : scope.mixins.get? (Mixin.key inclusion.name) = some mixin)
    (outer : (expandContent (inclusion.content.getD [])).run state = (content, outside))
    (inner : (expandBody mixin.body).run
      { outside with guard := Mixin.key inclusion.name :: outside.guard } = (body, inside)) :
    (expandInclude scope expandContent expandBody line inclusion).run state =
      (Include.contentSlot?.replace (fun _ => content) (bindArguments body mixin.parameters
          (Include.argumentsOf scope.globals inclusion.arguments)),
        { inside with guard := inside.guard.erase (Mixin.key inclusion.name) }) := by
  rw [run_expandInclude_of_known (by simpa using free) known, outer]
  dsimp only
  rw [inner]

/-- An include is removed, or its mixin is known and free. -/
theorem expandInclude_cases (scope : Scope) (inclusion : Include) (state : State) :
    (∃ problem, ∀ expandContent expandBody line,
      (expandInclude scope expandContent expandBody line inclusion).run state = ([], { state with
        notices := state.notices ++ [⟨problem, line, some inclusion.heading⟩] })) ∨
    Mixin.key inclusion.name ∉ state.guard ∧
      ∃ mixin, scope.mixins.get? (Mixin.key inclusion.name) = some mixin := by
  cases guarded : state.guard.contains (Mixin.key inclusion.name) with
  | true => exact .inl ⟨_, fun _ _ _ => run_expandInclude_of_guarded guarded⟩
  | false =>
      cases known : scope.mixins.get? (Mixin.key inclusion.name) with
      | none => exact .inl ⟨_, fun _ _ _ => run_expandInclude_of_unknown guarded known⟩
      | some mixin => exact .inr ⟨by simpa using guarded, mixin, rfl⟩

end

/-- The guard is after every expansion what it was before. -/
def Restores (expand : Text → StateM State Text) : Prop :=
  ∀ text state, ((expand text).run state).2.guard = state.guard

theorem restores_expandInclude {expandContent expandBody : Text → StateM State Text}
    (content : Restores expandContent) (body : Restores expandBody) (line : Option Int)
    (inclusion : Include) (state : State) :
    ((expandInclude scope expandContent expandBody line inclusion).run state).2.guard =
      state.guard := by
  rcases expandInclude_cases scope inclusion state with ⟨problem, removed⟩ | ⟨free, mixin, known⟩
  · rw [removed]
  · have outside := content (inclusion.content.getD []) state
    rcases outer : (expandContent (inclusion.content.getD [])).run state with ⟨expanded, next⟩
    have inside := body mixin.body { next with guard := Mixin.key inclusion.name :: next.guard }
    rcases inner : (expandBody mixin.body).run
      { next with guard := Mixin.key inclusion.name :: next.guard } with ⟨bound, final⟩
    rw [outer] at outside
    rw [inner] at inside
    rw [run_expandInclude_of_runs free known outer inner]
    dsimp only at inside outside ⊢
    rw [inside, List.erase_cons_head, outside]

theorem restores_spliceM {expandContent expandBody : Text → StateM State Text}
    (content : Restores expandContent) (body : Restores expandBody)
    (lineOf : Nat → Option Int) :
    Restores (Include.include?.spliceM fun line inclusion =>
      expandInclude scope expandContent expandBody (lineOf line) inclusion) := by
  intro text state
  refine splicePieces_kept (fun next : State => next.guard = state.guard) ?_ 1 rfl
  intro line inclusion source next _ same
  rw [restores_expandInclude content body, same]

theorem restores_expandNested {expandBody : Text → StateM State Text} (body : Restores expandBody)
    (depth : Nat) : Restores (expandNested scope expandBody depth) := by
  induction depth with
  | zero => exact fun _ _ => rfl
  | succ depth ih => exact restores_spliceM ih body fun _ => none

theorem restores_expandBody (levels : Nat) : Restores (expandBody scope levels) := by
  induction levels with
  | zero => exact fun text => restores_expandNested (fun _ _ => rfl) text.length text
  | succ levels ih => exact fun text => restores_expandNested ih text.length text

theorem restores_expandWithin : Restores (expandWithin scope) :=
  fun text => restores_expandNested (restores_expandBody scope.mixins.size) text.length text

/-- A text to be expanded, inside the mixins of the guard. -/
structure Task where
  text : Text
  guard : List Text

/-- What the expansion of the second task asks for: the content of an include that is expanded, or
the body of its mixin. -/
inductive Calls (scope : Scope) : Task → Task → Prop
  | content {text source : Text} {guard : List Text} {inclusion : Include} {mixin : Mixin}
      (found : .hit inclusion source ∈ Include.include?.cut text)
      (free : Mixin.key inclusion.name ∉ guard)
      (known : scope.mixins.get? (Mixin.key inclusion.name) = some mixin) :
      Calls scope ⟨inclusion.content.getD [], guard⟩ ⟨text, guard⟩
  | body {text source : Text} {guard : List Text} {inclusion : Include} {mixin : Mixin}
      (found : .hit inclusion source ∈ Include.include?.cut text)
      (free : Mixin.key inclusion.name ∉ guard)
      (known : scope.mixins.get? (Mixin.key inclusion.name) = some mixin) :
      Calls scope ⟨mixin.body, Mixin.key inclusion.name :: guard⟩ ⟨text, guard⟩

theorem length_content_lt {text source : Text} {inclusion : Include}
    (found : .hit inclusion source ∈ Include.include?.cut text) :
    (inclusion.content.getD []).length < text.length := by
  obtain ⟨before, rest, rfl, matched⟩ := split_of_mem_cut Include.include?_whole.proper found
  obtain ⟨blanks, written, gap, after, _, _, _, _, ends, shape⟩ := Include.include?_eq_some matched
  have content : (inclusion.content.getD []).length ≤ after.length := by
    generalize inclusion.content = block at ends
    cases ends with
    | semicolon => exact Nat.zero_le _
    | brace => exact Nat.zero_le _
    | block body =>
        rcases Block.body_split body with rfl | ⟨rfl, rfl⟩
        · simp
          omega
        · simp
  have whole : (source ++ rest).length =
      "@include".toList.length + (blanks ++ inclusion.name ++ written ++ gap).length +
        after.length := by
    rw [shape]
    simp only [List.length_append]
    omega
  have keyword : "@include".toList.length = 8 := rfl
  rw [List.length_append]
  omega

/-- The names of mixins that are not being expanded. -/
def unentered (scope : Scope) (guard : List Text) : List Text :=
  scope.mixins.names.filter fun name => !guard.contains name

theorem length_unentered_le (scope : Scope) (guard : List Text) :
    (unentered scope guard).length ≤ scope.mixins.size := by
  refine (List.length_filter_le _ _).trans ?_
  simp [Table.names, Table.size]

theorem length_unentered_cons_lt {guard : List Text} {key : Text}
    (known : key ∈ scope.mixins.names) (free : key ∉ guard) :
    (unentered scope (key :: guard)).length < (unentered scope guard).length := by
  have fewer : unentered scope (key :: guard) = (unentered scope guard).filter (· ≠ key) := by
    rw [unentered, unentered, List.filter_filter]
    refine List.filter_congr fun name _ => ?_
    simp
  rw [fewer, List.length_filter_lt_length_iff_exists]
  exact ⟨key, List.mem_filter.mpr ⟨known, by simpa using free⟩, by simp⟩

theorem Calls.smaller {inner outer : Task} (calls : Calls scope inner outer) :
    (inner.guard = outer.guard ∧ inner.text.length < outer.text.length) ∨
      ∃ key ∈ scope.mixins.names, key ∉ outer.guard ∧ inner.guard = key :: outer.guard := by
  cases calls with
  | content found _ _ => exact .inl ⟨rfl, length_content_lt found⟩
  | body _ free known =>
      exact .inr ⟨_, List.mem_map_of_mem (Table.mem_of_get?_eq_some known), free, rfl⟩

theorem wellFounded_calls (scope : Scope) : WellFounded (Calls scope) := by
  let measure (task : Task) : Nat × Nat := ((unentered scope task.guard).length, task.text.length)
  have ordered := (Prod.lex ⟨_, Nat.lt_wfRel.wf⟩ ⟨_, Nat.lt_wfRel.wf⟩).wf
  refine Subrelation.wf (fun {inner outer} calls => ?_) (InvImage.wf measure ordered)
  rcases calls.smaller with ⟨same, shorter⟩ | ⟨key, known, free, more⟩
  · have first : (unentered scope inner.guard).length = (unentered scope outer.guard).length := by
      rw [same]
    simp only [InvImage, measure, first]
    exact .right _ shorter
  · refine .left _ _ ?_
    rw [more]
    exact length_unentered_cons_lt known free

/-- Expands the includes of a text inside other includes, and leaves their content and the bodies of
their mixins to `expand`. -/
def expandRound (scope : Scope) (expand : Text → StateM State Text) (text : Text) :
    StateM State Text :=
  Include.include?.spliceM (fun _ inclusion => expandInclude scope expand expand none inclusion)
    text

theorem run_expandInclude_congr {content content' body body' : Text → StateM State Text}
    {inclusion : Include} {state : State} (restores : Restores content')
    (calls : ∀ mixin, Mixin.key inclusion.name ∉ state.guard →
      scope.mixins.get? (Mixin.key inclusion.name) = some mixin → ∀ notices,
      (content (inclusion.content.getD [])).run ⟨state.guard, notices⟩ =
          (content' (inclusion.content.getD [])).run ⟨state.guard, notices⟩ ∧
        (body mixin.body).run ⟨Mixin.key inclusion.name :: state.guard, notices⟩ =
          (body' mixin.body).run ⟨Mixin.key inclusion.name :: state.guard, notices⟩)
    (line : Option Int) :
    (expandInclude scope content body line inclusion).run state =
      (expandInclude scope content' body' line inclusion).run state := by
  rcases expandInclude_cases scope inclusion state with ⟨problem, removed⟩ | ⟨free, mixin, known⟩
  · rw [removed, removed]
  · have same := calls mixin free known
    have kept := restores (inclusion.content.getD []) state
    rcases outer : (content' (inclusion.content.getD [])).run state with ⟨expanded, next⟩
    rw [outer] at kept
    have bodies := (same next.notices).2
    rw [← show next.guard = state.guard from kept] at bodies
    rcases inner : (body' mixin.body).run
      { next with guard := Mixin.key inclusion.name :: next.guard } with ⟨bound, final⟩
    rw [run_expandInclude_of_runs free known ((same state.notices).1.trans outer)
      (bodies.trans inner), run_expandInclude_of_runs free known outer inner]

/-- A round asks for nothing but the tasks that follow from its own. -/
theorem run_expandRound_congr {one two : Text → StateM State Text} {text : Text} {state : State}
    (restores : Restores two)
    (same : ∀ inner, Calls scope inner ⟨text, state.guard⟩ → ∀ notices,
      (one inner.text).run ⟨inner.guard, notices⟩ = (two inner.text).run ⟨inner.guard, notices⟩) :
    (expandRound scope one text).run state = (expandRound scope two text).run state := by
  refine run_splicePieces_congr (fun next : State => next.guard = state.guard) ?_ ?_ 1 rfl
  · intro line inclusion source next found kept
    refine run_expandInclude_congr restores (fun mixin free known notices => ?_) none
    rw [kept] at free ⊢
    exact ⟨same _ (.content found free known) notices, same _ (.body found free known) notices⟩
  · intro line inclusion source next _ kept
    rw [restores_expandInclude restores restores, kept]

theorem expandNested_nil (expandBody : Text → StateM State Text) (depth : Nat) :
    expandNested scope expandBody depth [] = pure [] := by
  cases depth <;> rfl

theorem expandNested_succ (expandBody : Text → StateM State Text) (depth : Nat) (text : Text) :
    expandNested scope expandBody (depth + 1) text = splicePieces (fun _ inclusion =>
      expandInclude scope (expandNested scope expandBody depth) expandBody none inclusion) 1
      (Include.include?.cut text) := by
  rw [expandNested, spliceM]

theorem expandBody_succ (levels : Nat) (text : Text) :
    expandBody scope (levels + 1) text =
      expandNested scope (expandBody scope levels) text.length text := by
  rw [expandBody]

/-- The bounds on depth and levels do not matter once they are as large as the text is long and as
there are mixins to enter. -/
theorem run_expandNested_enough (task : Task) {depth depth' levels levels' : Nat}
    (deep : task.text.length ≤ depth) (deep' : task.text.length ≤ depth')
    (high : (unentered scope task.guard).length ≤ levels)
    (high' : (unentered scope task.guard).length ≤ levels') (notices : List Notice) :
    (expandNested scope (expandBody scope levels) depth task.text).run ⟨task.guard, notices⟩ =
      (expandNested scope (expandBody scope levels') depth' task.text).run
        ⟨task.guard, notices⟩ := by
  induction task using (wellFounded_calls scope).induction generalizing
      depth depth' levels levels' notices with
  | _ task ih =>
      obtain ⟨text, guard⟩ := task
      dsimp only at deep deep' high high' ⊢
      cases text with
      | nil => rw [expandNested_nil, expandNested_nil]
      | cons c text =>
          obtain ⟨depth, rfl⟩ : ∃ less, depth = less + 1 := ⟨depth - 1, by grind⟩
          obtain ⟨depth', rfl⟩ : ∃ less, depth' = less + 1 := ⟨depth' - 1, by grind⟩
          rw [expandNested_succ, expandNested_succ]
          refine run_splicePieces_congr (fun next : State => next.guard = guard) ?_ ?_ 1
            rfl
          · intro line inclusion source next found kept
            refine run_expandInclude_congr (restores_expandNested (restores_expandBody _) _)
              (fun mixin free known notices => ?_) none
            rw [kept] at free ⊢
            have named : _ ∈ scope.mixins.names :=
              List.mem_map_of_mem (Table.mem_of_get?_eq_some known)
            have fewer := length_unentered_cons_lt named free
            have shorter := length_content_lt found
            obtain ⟨levels, rfl⟩ : ∃ less, levels = less + 1 := ⟨levels - 1, by omega⟩
            obtain ⟨levels', rfl⟩ : ∃ less, levels' = less + 1 := ⟨levels' - 1, by omega⟩
            rw [expandBody_succ, expandBody_succ]
            exact ⟨ih _ (.content found free known) (by grind) (by grind) high high' notices,
              ih _ (.body found free known) (Nat.le_refl _) (Nat.le_refl _) (by grind) (by grind)
                notices⟩
          · intro line inclusion source next _ kept
            rw [restores_expandInclude (restores_expandNested (restores_expandBody _) _)
              (restores_expandBody _), kept]

/-- A body is expanded like any other text, where a mixin has just been entered. -/
theorem run_expandBody {guard : List Text} {key : Text} (known : key ∈ scope.mixins.names)
    (free : key ∉ guard) (text : Text) (notices : List Notice) :
    (expandBody scope scope.mixins.size text).run ⟨key :: guard, notices⟩ =
      (expandWithin scope text).run ⟨key :: guard, notices⟩ := by
  have fewer := length_unentered_cons_lt known free
  have bounded := length_unentered_le scope guard
  obtain ⟨levels, size⟩ : ∃ levels, scope.mixins.size = levels + 1 :=
    ⟨scope.mixins.size - 1, by omega⟩
  rw [expandWithin, size, expandBody_succ]
  exact run_expandNested_enough ⟨text, key :: guard⟩ (Nat.le_refl _) (Nat.le_refl _) (by grind)
    (by grind) notices

theorem run_expandWithin (text : Text) (state : State) :
    (expandWithin scope text).run state =
      (expandRound scope (expandWithin scope) text).run state := by
  cases text with
  | nil =>
      rw [expandWithin, expandNested_nil]
      rfl
  | cons c text =>
      rw [expandWithin, List.length_cons, expandNested_succ]
      refine run_splicePieces_congr (fun next : State => next.guard = state.guard)
        ?_ ?_ 1 rfl
      · intro line inclusion source next found kept
        refine run_expandInclude_congr restores_expandWithin
          (fun mixin free known notices => ⟨?_, ?_⟩) none
        · have shorter := length_content_lt found
          rw [expandWithin]
          exact run_expandNested_enough ⟨_, next.guard⟩ (by grind) (Nat.le_refl _)
            (length_unentered_le scope _) (length_unentered_le scope _) notices
        · exact run_expandBody (List.mem_map_of_mem (Table.mem_of_get?_eq_some known)) free _ _
      · intro line inclusion source next _ kept
        rw [restores_expandInclude restores_expandWithin restores_expandWithin, kept]

theorem run_expandAll (text : Text) (state : State) :
    (expandAll scope text).run state = (Include.include?.spliceM (fun line inclusion =>
      expandInclude scope (expandWithin scope) (expandWithin scope) (some line) inclusion)
      text).run state := by
  refine run_splicePieces_congr (fun next : State => next.guard = state.guard) ?_ ?_ 1 rfl
  · intro line inclusion source next _ kept
    refine run_expandInclude_congr restores_expandWithin
      (fun mixin free known notices => ⟨rfl, ?_⟩) (some line)
    exact run_expandBody (List.mem_map_of_mem (Table.mem_of_get?_eq_some known)) free _ _
  · intro line inclusion source next _ kept
    rw [restores_expandInclude restores_expandWithin restores_expandWithin, kept]

/-- What holds of every text that an include may become holds of what it becomes. -/
theorem expandInclude_induction {holds : Text → Prop} {inclusion : Include} {state : State}
    {guard : List Text} (same : state.guard = guard) (removed : holds [])
    (contents : ∀ mixin, Mixin.key inclusion.name ∉ guard →
      scope.mixins.get? (Mixin.key inclusion.name) = some mixin → ∀ notices,
        holds ((expandWithin scope (inclusion.content.getD [])).run ⟨guard, notices⟩).1)
    (bodies : ∀ mixin, Mixin.key inclusion.name ∉ guard →
      scope.mixins.get? (Mixin.key inclusion.name) = some mixin → ∀ notices,
        holds ((expandWithin scope mixin.body).run ⟨Mixin.key inclusion.name :: guard, notices⟩).1)
    (filled : ∀ mixin content body, scope.mixins.get? (Mixin.key inclusion.name) = some mixin →
      holds content → holds body →
      holds (Include.contentSlot?.replace (fun _ => content) (bindArguments body mixin.parameters
        (Include.argumentsOf scope.globals inclusion.arguments))))
    (line : Option Int) :
    holds ((expandInclude scope (expandWithin scope) (expandWithin scope) line
      inclusion).run state).1 := by
  subst same
  rcases expandInclude_cases scope inclusion state with ⟨problem, gone⟩ | ⟨free, mixin, known⟩
  · rw [gone]
    exact removed
  · have content := contents mixin free known state.notices
    have kept := @restores_expandWithin scope (inclusion.content.getD []) state
    rcases outer : (expandWithin scope (inclusion.content.getD [])).run state with ⟨given, next⟩
    rw [outer] at kept
    have body := bodies mixin free known next.notices
    rw [← show next.guard = state.guard from kept] at body
    rcases inner : (expandWithin scope mixin.body).run
      { next with guard := Mixin.key inclusion.name :: next.guard } with ⟨text, final⟩
    rw [run_expandInclude_of_runs free known outer inner]
    replace content : holds given := by simpa [outer] using content
    replace body : holds text := by simpa [inner] using body
    exact filled mixin given text known content body

theorem expandRound_unique {expand : Text → StateM State Text}
    (solves : expand = expandRound scope expand) : expand = expandWithin scope := by
  suffices runs : ∀ task : Task, ∀ notices,
      (expand task.text).run ⟨task.guard, notices⟩ =
        (expandWithin scope task.text).run ⟨task.guard, notices⟩ by
    funext text state
    exact runs ⟨text, state.guard⟩ state.notices
  intro task
  induction task using (wellFounded_calls scope).induction with
  | _ task ih =>
      intro notices
      rw [run_expandWithin, solves]
      exact run_expandRound_congr restores_expandWithin ih

/-- Expansion ends and restores the guard, whatever the mixins include of one another. Tasks follow
from one another in finitely many steps, since each has a shorter text inside the same mixins or
stands inside one mixin more; the expansion of a text looks at nothing but the expansions of the
tasks that follow from it, and so it is the only solution of the recursion, in which no bound
occurs. A whole sheet is expanded by that recursion, too. -/
theorem expansion_terminates (scope : Scope) :
    WellFounded (Calls scope) ∧
    (∀ inner outer, Calls scope inner outer →
      (inner.guard = outer.guard ∧ inner.text.length < outer.text.length) ∨
        ∃ key ∈ scope.mixins.names, key ∉ outer.guard ∧ inner.guard = key :: outer.guard) ∧
    (∀ (expand : Text → StateM State Text) text state,
      (∀ inner, Calls scope inner ⟨text, state.guard⟩ → ∀ notices,
        (expand inner.text).run ⟨inner.guard, notices⟩ =
          (expandWithin scope inner.text).run ⟨inner.guard, notices⟩) →
      (expandRound scope expand text).run state = (expandWithin scope text).run state) ∧
    (∀ expand, expand = expandRound scope expand ↔ expand = expandWithin scope) ∧
    (∀ text state, ((expandWithin scope text).run state).2.guard = state.guard) ∧
    ∀ text state,
      (expandAll scope text).run state = (Include.include?.spliceM (fun line inclusion =>
        expandInclude scope (expandWithin scope) (expandWithin scope) (some line) inclusion)
        text).run state ∧
      ((expandAll scope text).run state).2.guard = state.guard := by
  have round : expandWithin scope = expandRound scope (expandWithin scope) :=
    funext fun text => funext fun state => run_expandWithin text state
  refine ⟨wellFounded_calls scope, fun _ _ calls => calls.smaller, ?_, ?_,
    restores_expandWithin, ?_⟩
  · intro expand text state same
    rw [run_expandWithin]
    exact run_expandRound_congr restores_expandWithin same
  · intro expand
    refine ⟨expandRound_unique, ?_⟩
    rintro rfl
    exact round
  · intro text state
    refine ⟨run_expandAll text state, ?_⟩
    exact restores_spliceM restores_expandWithin (restores_expandBody _) (fun line => some line)
      text state

end Expansion

end Flatsheet
