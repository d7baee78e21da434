import Mathlib.Data.List.Infix
import Mathlib.Data.List.Zip
import Flatsheet.Proofs.Match

/-!
Calls of plug-in functions. A call is read from its name up to the first closing parenthesis, other
calls included that are opened in between. So a call is answered if and only if none is open where it
begins, that is, if since the last closing parenthesis or semicolon no name has been followed by an
opening parenthesis. A call inside the parentheses of another one is passed over, whether or not the
outer one is registered.
-/

namespace Flatsheet.Plugin

namespace Call

def text (call : Call) : Text := call.name ++ '(' :: (call.arguments ++ [')'])

/-- The arguments may hold an opening parenthesis. -/
structure Written (call : Call) : Prop where
  named : call.name ≠ []
  name : ∀ c ∈ call.name, isName c = true
  arguments : ∀ c ∈ call.arguments, c ≠ ')' ∧ c ≠ ';'

theorem written_iff {call : Call} :
    (call.name ≠ [] ∧ call.name.all isName = true ∧
      call.arguments.all (fun c => c != ')' && c != ';') = true) ↔ call.Written := by
  constructor
  · intro ⟨named, name, arguments⟩
    exact ⟨named, by simpa using name, by simpa using arguments⟩
  · intro ⟨named, name, arguments⟩
    exact ⟨named, by simpa using name, by simpa using arguments⟩

instance (call : Call) : Decidable call.Written := decidable_of_iff _ written_iff

end Call

theorem isName_opening : isName '(' = false := by decide +kernel

theorem isName_closing : isName ')' = false := by decide +kernel

theorem call?_eq_some_iff {text rest : Text} {call : Call} :
    call? text = some (call, rest) ↔ call.Written ∧ text = call.text ++ rest := by
  constructor
  · intro found
    obtain ⟨name, shape⟩ := call?_eq_some found
    simp only [call?, Option.bind_eq_bind, Option.bind_eq_some_iff, Prod.exists] at found
    obtain ⟨run, afterName, named, inside, opened, left, closed, same⟩ := found
    obtain ⟨rfl, rfl⟩ : (⟨run, inside.takeWhile fun c => c != ')' && c != ';'⟩ : Call) = call ∧
        left = rest := by simpa using same
    refine ⟨⟨(Text.run?_eq_some.mp named).2.1, name, ?_⟩, by simpa [Call.text] using shape⟩
    intro c member
    simpa using List.mem_takeWhile_imp member
  · intro given
    obtain ⟨written, split⟩ := given
    have argument : ∀ c ∈ call.arguments, (c != ')' && c != ';') = true := by
      intro c member
      simpa using written.arguments c member
    have outside := Text.head?_cons_fails isName_opening (call.arguments ++ ')' :: rest)
    have whole : text = call.name ++ '(' :: (call.arguments ++ ')' :: rest) := by
      simp [split, Call.text]
    have named := Text.run?_eq_some.mpr ⟨whole, written.named, written.name, outside⟩
    have opened : Text.dropPrefix? ['('] ('(' :: (call.arguments ++ ')' :: rest)) =
        some (call.arguments ++ ')' :: rest) := Text.dropPrefix?_eq_some.mpr rfl
    have taken : (call.arguments ++ ')' :: rest).takeWhile (fun c => c != ')' && c != ';') =
        call.arguments := by
      rw [List.takeWhile_append_of_pos argument]
      simp
    have dropped : (call.arguments ++ ')' :: rest).dropWhile (fun c => c != ')' && c != ';') =
        ')' :: rest := by
      rw [List.dropWhile_append_of_pos argument]
      simp
    have closed : Text.dropPrefix? [')'] (')' :: rest) = some rest :=
      Text.dropPrefix?_eq_some.mpr rfl
    simp only [call?, named, Option.bind_eq_bind, Option.bind_some, opened, dropped, closed, taken,
      Option.pure_def]

/-- No call is open at the end of the text. A closing parenthesis or a semicolon closes every call
that is open. -/
def Exposed (before : Text) : Prop :=
  ∀ front c inside, before = front ++ c :: '(' :: inside → isName c = true →
    ')' ∈ inside ∨ ';' ∈ inside

/-- The name does not begin earlier. -/
def Starts (before : Text) : Prop := before.getLast?.any isName = false

instance : DecidablePred Starts := fun before =>
  inferInstanceAs (Decidable (before.getLast?.any isName = false))

/-- After the text `before`, the call is one that the text holds. -/
def Stands (before : Text) (call : Call) : Prop := call.Written ∧ Starts before

theorem exposed_iff {before : Text} :
    (∀ rest ∈ before.tails, rest.head?.any isName = true → rest.tail.head? = some '(' →
      ')' ∈ rest.drop 2 ∨ ';' ∈ rest.drop 2) ↔ Exposed before := by
  constructor
  · intro checked front c inside split named
    exact checked (c :: '(' :: inside) ((List.mem_tails _ _).mpr ⟨front, split.symm⟩) named rfl
  · intro exposed rest listed named opening
    obtain ⟨front, split⟩ := (List.mem_tails _ _).mp listed
    cases rest with
    | nil => cases opening
    | cons c rest =>
        cases rest with
        | nil => cases opening
        | cons d inside =>
            obtain rfl : d = '(' := Option.some.inj opening
            exact exposed front c inside split.symm named

instance : DecidablePred Exposed := fun _ => decidable_of_iff _ exposed_iff

theorem Exposed.of_append {front rest : Text} (exposed : Exposed (front ++ rest)) :
    Exposed rest := by
  intro early c inside split
  exact exposed (front ++ early) c inside (by simp [split])

theorem Starts.of_append {front rest : Text} (starts : Starts (front ++ rest)) : Starts rest := by
  cases rest with
  | nil => rfl
  | cons c rest =>
      unfold Starts at starts ⊢
      rwa [List.getLast?_append_of_ne_nil _ (by simp)] at starts

def Found (before : Text) (call : Call) : Prop := Stands before call ∧ Exposed before

/-- Of the text, exactly the calls that stand as `stands` says are marked. -/
structure Marks (stands : (before : Text) → Call → Prop) (text : Text)
    (pieces : List (Piece Call)) : Prop where
  sources : pieces.flatMap Piece.source = text
  sound : ∀ front call source back, pieces = front ++ .hit call source :: back →
    source = call.text ∧ stands (front.flatMap Piece.source) call
  complete : ∀ before call after, text = before ++ (call.text ++ after) → stands before call →
    ∃ front back, pieces = front ++ .hit call call.text :: back ∧
      front.flatMap Piece.source = before

/-- Parentheses opened before are closed here. -/
def Closes (text : Text) : Prop :=
  ∃ inside rest, text = inside ++ ')' :: rest ∧ ∀ c ∈ inside, c ≠ ')' ∧ c ≠ ';'

/-- The name of a call may go on here. -/
def GoesOn (text : Text) : Prop :=
  ∃ name rest, (∀ c ∈ name, isName c = true) ∧ text = name ++ '(' :: rest ∧ Closes rest

/-- Between the two texts, no call is under way that the second one would close. -/
structure Fresh (before text : Text) : Prop where
  exposed : Closes text → Exposed before
  starts : GoesOn text → Starts before

theorem fresh_nil (text : Text) : Fresh [] text where
  exposed _ := by
    intro front c inside split
    simp at split
  starts _ := rfl

theorem exposed_closing (front : Text) : Exposed (front ++ [')']) := by
  intro early c inside split _
  cases List.eq_nil_or_concat' inside with
  | inl empty =>
      have last : front ++ [')'] = early ++ [c] ++ ['('] := by simp [split, empty]
      exact absurd (List.append_inj' last rfl).2 (by decide)
  | inr more =>
      obtain ⟨inner, d, rfl⟩ := more
      have last : front ++ [')'] = early ++ c :: '(' :: inner ++ [d] := by simp [split]
      obtain rfl : ')' = d := (List.cons.inj (List.append_inj' last rfl).2).1
      exact .inl (by simp)

theorem starts_closing (front : Text) : Starts (front ++ [')']) := by
  simp [Starts, isName_closing]

theorem GoesOn.call? {c : Char} {text : Text} (named : isName c = true) (goesOn : GoesOn text) :
    ∃ found, call? (c :: text) = some found := by
  obtain ⟨name, rest, inside, rfl, arguments, left, rfl, free⟩ := goesOn
  refine ⟨(⟨c :: name, arguments⟩, left), call?_eq_some_iff.mpr ⟨⟨by simp, ?_, free⟩, ?_⟩⟩
  · exact List.forall_mem_cons.mpr ⟨named, inside⟩
  · simp [Call.text]

theorem Fresh.char {before rest : Text} {c : Char} (fresh : Fresh before (c :: rest))
    (missed : call? (c :: rest) = none) : Fresh (before ++ [c]) rest where
  exposed closes := by
    intro front d inside split named
    cases List.eq_nil_or_concat' inside with
    | inl empty =>
        have last : before ++ [c] = front ++ [d] ++ ['('] := by simp [split, empty]
        obtain ⟨ahead, same⟩ := List.append_inj' last rfl
        obtain rfl : c = '(' := (List.cons.inj same).1
        have starts := fresh.starts ⟨[], rest, by simp, rfl, closes⟩
        simp [Starts, ahead, named] at starts
    | inr more =>
        obtain ⟨inner, x, rfl⟩ := more
        have last : before ++ [c] = front ++ d :: '(' :: inner ++ [x] := by simp [split]
        obtain ⟨ahead, same⟩ := List.append_inj' last rfl
        obtain rfl : c = x := (List.cons.inj same).1
        by_cases closing : c = ')' ∨ c = ';'
        · cases closing with
          | inl parenthesis => exact .inl (by simp [parenthesis])
          | inr semicolon => exact .inr (by simp [semicolon])
        · obtain ⟨arguments, left, rfl, free⟩ := closes
          have goesOn : Closes (c :: (arguments ++ ')' :: left)) :=
            ⟨c :: arguments, left, rfl, List.forall_mem_cons.mpr ⟨not_or.mp closing, free⟩⟩
          cases fresh.exposed goesOn front d inner ahead named with
          | inl parenthesis => exact .inl (List.mem_append_left _ parenthesis)
          | inr semicolon => exact .inr (List.mem_append_left _ semicolon)
  starts goesOn := by
    cases named : isName c with
    | false => simp [Starts, named]
    | true =>
        obtain ⟨found, call⟩ := goesOn.call? named
        rw [missed] at call
        cases call

theorem fresh_call (before : Text) (call : Call) (rest : Text) :
    Fresh (before ++ call.text) rest := by
  have ended : before ++ call.text = before ++ call.name ++ '(' :: call.arguments ++ [')'] := by
    simp [Call.text]
  rw [ended]
  exact ⟨fun _ => exposed_closing _, fun _ => starts_closing _⟩

theorem Fresh.found {before rest : Text} {call : Call} (fresh : Fresh before (call.text ++ rest))
    (written : call.Written) : Found before call := by
  have closes : Closes (call.arguments ++ ')' :: rest) :=
    ⟨call.arguments, rest, rfl, written.arguments⟩
  have whole : call.text ++ rest = call.name ++ '(' :: (call.arguments ++ ')' :: rest) := by
    simp [Call.text]
  rw [whole] at fresh
  refine ⟨⟨written, fresh.starts ⟨call.name, _, written.name, rfl, closes⟩⟩, fresh.exposed ?_⟩
  refine ⟨call.name ++ '(' :: call.arguments, rest, by simp, ?_⟩
  intro c member
  cases List.mem_append.mp member with
  | inl early =>
      have name := written.name c early
      constructor
      · intro same
        rw [same, isName_closing] at name
        cases name
      · intro same
        rw [same] at name
        exact absurd name (by decide +kernel)
  | inr late =>
      cases List.mem_cons.mp late with
      | inl same => rw [same]; decide
      | inr inside => exact written.arguments c inside

theorem Found.of_append {front rest : Text} {call : Call} (found : Found (front ++ rest) call) :
    Found rest call := by
  obtain ⟨⟨written, starts⟩, exposed⟩ := found
  exact ⟨⟨written, starts.of_append⟩, exposed.of_append⟩

/-- The cut is followed from any place, so what stands before that place is part of the invariant. -/
theorem found_of_mem_cut {before text : Text} (fresh : Fresh before text)
    {front back : List (Piece Call)} {call : Call} {source : Text}
    (cut : call?.cut text = front ++ .hit call source :: back) :
    source = call.text ∧ Found (before ++ front.flatMap Piece.source) call := by
  revert before front
  refine Pattern.cut_induction call?_proper (motive := fun text pieces =>
    ∀ {before : Text} (_ : Fresh before text) {front : List (Piece Call)},
      pieces = front ++ .hit call source :: back →
      source = call.text ∧ Found (before ++ front.flatMap Piece.source) call) ?_ ?_ ?_ text
  · intro before _ front split
    simp at split
  · intro c rest missed ih before fresh front split
    cases front with
    | nil => cases split
    | cons piece front =>
        obtain ⟨rfl, remaining⟩ := List.cons.inj split
        have later := ih (fresh.char missed) remaining
        simpa [Piece.source] using later
  · intro covered value rest _ matched ih before fresh front split
    obtain ⟨written, whole⟩ := call?_eq_some_iff.mp matched
    have same : covered = value.text := List.append_cancel_right whole
    cases front with
    | nil =>
        obtain ⟨hit, _⟩ := List.cons.inj split
        cases hit
        rw [same] at fresh
        exact ⟨same, by simpa using fresh.found written⟩
    | cons piece front =>
        obtain ⟨rfl, remaining⟩ := List.cons.inj split
        have later := ih (fresh_call before value rest) remaining
        simpa [Piece.source, same] using later

theorem not_starts_of_name {before : Text} (named : ∀ c ∈ before, isName c = true)
    (ne : before ≠ []) : ¬ Starts before := by
  intro starts
  have last := named _ (List.getLast_mem ne)
  simp [Starts, List.getLast?_eq_some_getLast ne, last] at starts

theorem not_exposed_of_call {name inside : Text} (ne : name ≠ [])
    (named : ∀ c ∈ name, isName c = true) (free : ∀ c ∈ inside, c ≠ ')' ∧ c ≠ ';') :
    ¬ Exposed (name ++ '(' :: inside) := by
  intro exposed
  obtain ⟨front, c, rfl⟩ := (List.eq_nil_or_concat' name).resolve_left ne
  cases exposed front c inside (by simp) (named c (by simp)) with
  | inl closing => exact (free _ closing).1 rfl
  | inr closing => exact (free _ closing).2 rfl

/-- A call found in the text does not begin inside another call. -/
theorem Found.not_within {before tail : Text} {call outer : Call} (found : Found before call)
    (written : outer.Written) (covered : outer.text = before ++ tail) :
    before = [] ∨ tail = [] := by
  obtain ⟨⟨_, starts⟩, exposed⟩ := found
  by_contra strict
  obtain ⟨ahead, behind⟩ := not_or.mp strict
  have whole : outer.name ++ '(' :: (outer.arguments ++ [')']) = before ++ tail := by
    simpa [Call.text] using covered
  cases List.append_eq_append_iff.mp whole with
  | inl past =>
      obtain ⟨between, rfl, rest⟩ := past
      cases between with
      | nil => exact not_starts_of_name (by simpa using written.name) ahead starts
      | cons c inside =>
          obtain ⟨rfl, left⟩ := List.cons.inj rest
          have kept : inside ++ tail.dropLast = outer.arguments := by
            have last := congrArg List.dropLast left
            simpa [List.dropLast_append_of_ne_nil behind] using last.symm
          refine not_exposed_of_call written.named written.name ?_ exposed
          intro d member
          exact written.arguments d (by simp [← kept, member])
  | inr early =>
      obtain ⟨between, name, _⟩ := early
      refine not_starts_of_name ?_ ahead starts
      intro c member
      exact written.name c (by simp [name, member])

theorem mem_cut_of_found {text before after : Text} {call : Call}
    (split : text = before ++ (call.text ++ after)) (found : Found before call) :
    ∃ front back, call?.cut text = front ++ .hit call call.text :: back ∧
      front.flatMap Piece.source = before := by
  revert before
  refine Pattern.cut_induction call?_proper (motive := fun text pieces => ∀ {before : Text},
    text = before ++ (call.text ++ after) → Found before call →
    ∃ front back, pieces = front ++ .hit call call.text :: back ∧
      front.flatMap Piece.source = before) ?_ ?_ ?_ text
  · intro before split found
    simp [Call.text] at split
  · intro c rest missed ih before split found
    cases before with
    | nil =>
        have here : call? (c :: rest) = some (call, after) :=
          call?_eq_some_iff.mpr ⟨found.1.1, split⟩
        rw [missed] at here
        cases here
    | cons d before =>
        obtain ⟨rfl, remaining⟩ := List.cons.inj split
        have inside : Found ([c] ++ before) call := found
        obtain ⟨front, back, cut, sources⟩ := ih remaining inside.of_append
        exact ⟨.char c :: front, back, by rw [cut]; rfl, by simp [Piece.source, sources]⟩
  · intro covered value rest _ matched ih before split found
    obtain ⟨written, whole⟩ := call?_eq_some_iff.mp matched
    have same : covered = value.text := List.append_cancel_right whole
    have further : ∀ between, before = covered ++ between →
        rest = between ++ (call.text ++ after) → ∃ front back,
          .hit value covered :: call?.cut rest = front ++ .hit call call.text :: back ∧
            front.flatMap Piece.source = before := by
      intro between ahead remaining
      obtain ⟨front, back, cut, sources⟩ := ih remaining (ahead ▸ found).of_append
      exact ⟨.hit value covered :: front, back, by rw [cut]; rfl,
        by simp [Piece.source, sources, ahead]⟩
    cases List.append_eq_append_iff.mp split with
    | inl past =>
        obtain ⟨between, ahead, remaining⟩ := past
        exact further between ahead remaining
    | inr early =>
        obtain ⟨between, inside, remaining⟩ := early
        cases found.not_within written (same ▸ inside) with
        | inl empty =>
            have here := call?_eq_some_iff.mpr ⟨found.1.1, split.trans (by rw [empty]; rfl)⟩
            rw [matched] at here
            cases here
            exact ⟨[], call?.cut after, by rw [same]; rfl, by simp [empty]⟩
        | inr ended =>
            exact further [] (by simp [inside, ended]) (by simp [remaining, ended])

theorem marks_cut (text : Text) : Marks Found text (call?.cut text) where
  sources := Pattern.cut_sources call?_proper text
  sound _ _ _ _ cut := found_of_mem_cut (fresh_nil text) cut
  complete _ _ _ split found := mem_cut_of_found split found

theorem Marks.congr {stands other : Text → Call → Prop} {text : Text} {pieces : List (Piece Call)}
    (marks : Marks stands text pieces) (same : ∀ before call after,
      text = before ++ (call.text ++ after) → (stands before call ↔ other before call)) :
    Marks other text pieces where
  sources := marks.sources
  sound front call source back cut := by
    obtain ⟨written, standing⟩ := marks.sound front call source back cut
    have split : text = front.flatMap Piece.source ++
        (call.text ++ back.flatMap Piece.source) := by
      rw [← marks.sources, cut, List.flatMap_append, List.flatMap_cons, Piece.source, written]
    exact ⟨written, (same _ call _ split).mp standing⟩
  complete before call after split standing :=
    marks.complete before call after split ((same before call after split).mpr standing)

variable (functions : Table Function)

/-- A call of a name that is not registered stays as it is. -/
def answer : Piece Call → Except Text Text
  | .char c => .ok [c]
  | .hit call source => (functions.get? call.name).elim (.ok source) fun function =>
      (function call.arguments).map Reply.render

/-- The pieces with the calls among them answered, or the message of the first function that gives
up. -/
def answered (pieces : List (Piece Call)) : Except Text Text :=
  (pieces.mapM (answer functions)).map List.flatten

theorem answered_cons (piece : Piece Call) (pieces : List (Piece Call)) :
    answered functions (piece :: pieces) = do
      let first ← answer functions piece
      let others ← answered functions pieces
      return first ++ others := by
  simp only [answered, List.mapM_cons]
  cases answer functions piece with
  | error message => rfl
  | ok first => cases pieces.mapM (answer functions) <;> rfl

theorem answered_chars_append (text : Text) (pieces : List (Piece Call)) :
    answered functions (text.map .char ++ pieces) =
      (answered functions pieces).map (text ++ ·) := by
  induction text with
  | nil =>
      rw [List.map_nil, List.nil_append]
      cases answered functions pieces <;> rfl
  | cons c text ih =>
      rw [List.map_cons, List.cons_append, answered_cons, ih]
      cases answered functions pieces <;> rfl

variable {functions} in
theorem replacePieces_answer {replace : Nat → Call → Text → Except Text Text}
    (same : ∀ line call source, replace line call source = answer functions (.hit call source))
    (line : Nat) (pieces : List (Piece Call)) :
    Pattern.replacePieces replace line pieces = answered functions pieces := by
  induction pieces generalizing line with
  | nil => rfl
  | cons piece pieces ih =>
      rw [answered_cons]
      cases piece with
      | char c =>
          rw [Pattern.replacePieces, ih]
          rfl
      | hit call source => rw [Pattern.replacePieces, ih, same]

theorem answerCalls_eq (text : Text) :
    answerCalls functions text = answered functions (call?.cut text) := by
  apply replacePieces_answer
  intro line call source
  simp only [answer]
  cases functions.get? call.name with
  | none => rfl
  | some function => cases reply : function call.arguments <;> simp [reply] <;> rfl

/-- Reads a call of a name that is not registered as plain text. -/
def keep : Piece Call → List (Piece Call)
  | .char c => [.char c]
  | .hit call source =>
      if functions.contains call.name then [.hit call source] else source.map .char

theorem keep_cases (piece : Piece Call) :
    (answer functions piece = .ok piece.source ∧
        keep functions piece = piece.source.map .char) ∨
      ∃ call source, piece = .hit call source ∧ functions.contains call.name = true ∧
        keep functions piece = [piece] := by
  cases piece with
  | char c => exact .inl ⟨rfl, rfl⟩
  | hit call source =>
      cases registered : functions.contains call.name with
      | true => exact .inr ⟨call, source, rfl, registered, by simp [keep, registered]⟩
      | false =>
          have unknown : functions.get? call.name = none := by
            simpa [Table.contains] using registered
          exact .inl ⟨by simp [answer, unknown, Piece.source],
            by simp [keep, registered, Piece.source]⟩

theorem source_chars (text : Text) :
    (text.map (@Piece.char Call)).flatMap Piece.source = text := by
  rw [List.flatMap_map]
  exact List.flatMap_singleton' text

theorem source_keep (piece : Piece Call) :
    (keep functions piece).flatMap Piece.source = piece.source := by
  cases keep_cases functions piece with
  | inl plain => rw [plain.2, source_chars]
  | inr kept =>
      obtain ⟨_, _, _, _, kept⟩ := kept
      simp [kept]

theorem answered_keep (pieces : List (Piece Call)) :
    answered functions (pieces.flatMap (keep functions)) = answered functions pieces := by
  induction pieces with
  | nil => rfl
  | cons piece pieces ih =>
      rw [List.flatMap_cons, answered_cons]
      cases keep_cases functions piece with
      | inl plain =>
          rw [plain.1, plain.2, answered_chars_append, ih]
          cases answered functions pieces <;> rfl
      | inr kept =>
          obtain ⟨_, _, _, _, kept⟩ := kept
          rw [kept, List.singleton_append, answered_cons, ih]

theorem hit_after_chars {text : Text} {pieces front back : List (Piece Call)} {call : Call}
    {source : Text} (split : text.map .char ++ pieces = front ++ .hit call source :: back) :
    ∃ inner, front = text.map .char ++ inner ∧ pieces = inner ++ .hit call source :: back := by
  cases List.append_eq_append_iff.mp split with
  | inl past => exact past
  | inr early =>
      obtain ⟨between, chars, hit⟩ := early
      cases between with
      | nil => exact ⟨[], by simpa using chars.symm, by simpa using hit.symm⟩
      | cons piece between =>
          obtain ⟨rfl, _⟩ := List.cons.inj hit
          have member : Piece.hit call source ∈ text.map (@Piece.char Call) := by
            simp [chars]
          simp at member

theorem hit_of_keep {pieces front back : List (Piece Call)} {call : Call} {source : Text}
    (cut : pieces.flatMap (keep functions) = front ++ .hit call source :: back) :
    functions.contains call.name = true ∧ ∃ early late,
      pieces = early ++ .hit call source :: late ∧
        early.flatMap Piece.source = front.flatMap Piece.source := by
  induction pieces generalizing front with
  | nil => simp at cut
  | cons piece pieces ih =>
      rw [List.flatMap_cons] at cut
      cases keep_cases functions piece with
      | inl plain =>
          rw [plain.2] at cut
          obtain ⟨inner, rfl, remaining⟩ := hit_after_chars cut
          obtain ⟨registered, early, late, split, sources⟩ := ih remaining
          exact ⟨registered, piece :: early, late, by simp [split],
            by simp [source_chars, sources]⟩
      | inr kept =>
          obtain ⟨other, text, rfl, registered, kept⟩ := kept
          rw [kept] at cut
          cases front with
          | nil =>
              obtain ⟨hit, _⟩ := List.cons.inj cut
              cases hit
              exact ⟨registered, [], pieces, rfl, rfl⟩
          | cons first front =>
              obtain ⟨rfl, remaining⟩ := List.cons.inj cut
              obtain ⟨registered, early, late, split, sources⟩ := ih remaining
              exact ⟨registered, .hit other text :: early, late, by simp [split],
                by simp [sources]⟩

theorem Marks.keep {stands : Text → Call → Prop} {text : Text} {pieces : List (Piece Call)}
    (marks : Marks stands text pieces) :
    Marks (fun before call => stands before call ∧ functions.contains call.name = true) text
      (pieces.flatMap (keep functions)) where
  sources := by
    simp only [List.flatMap_assoc, source_keep, marks.sources]
  sound front call source back cut := by
    obtain ⟨registered, early, late, split, sources⟩ := hit_of_keep functions cut
    obtain ⟨written, standing⟩ := marks.sound early call source late split
    exact ⟨written, sources ▸ standing, registered⟩
  complete before call after split standing := by
    obtain ⟨standing, registered⟩ := standing
    obtain ⟨front, back, cut, sources⟩ := marks.complete before call after split standing
    refine ⟨front.flatMap (Plugin.keep functions), back.flatMap (Plugin.keep functions), ?_, ?_⟩
    · simp [cut, Plugin.keep, registered]
    · simp only [List.flatMap_assoc, source_keep, sources]

/-- No call of a registered function stands inside another call or has an opening parenthesis in its
arguments. -/
def Unnested (text : Text) : Prop :=
  ∀ before call after, text = before ++ (call.text ++ after) → Stands before call →
    functions.contains call.name = true → '(' ∉ call.arguments ∧ Exposed before

theorem unnested_iff {text : Text} :
    (∀ split ∈ text.inits.zip text.tails, (call? split.2).all (fun found =>
      Starts split.1 → functions.contains found.1.name = true →
        '(' ∉ found.1.arguments ∧ Exposed split.1) = true) ↔ Unnested functions text := by
  constructor
  · intro checked before call after split standing registered
    have listed := checked (before, call.text ++ after) (List.mem_zip_inits_tails.mpr split.symm)
    rw [call?_eq_some_iff.mpr ⟨standing.1, rfl⟩] at listed
    simpa [standing.2, registered] using listed
  · intro unnested (before, rest) listed
    rw [List.mem_zip_inits_tails] at listed
    simp only [Option.all_eq_true, decide_eq_true_eq, Prod.forall]
    intro call after found starts registered
    obtain ⟨written, rfl⟩ := call?_eq_some_iff.mp found
    exact unnested before call after listed.symm ⟨written, starts⟩ registered

instance (text : Text) : Decidable (Unnested functions text) :=
  decidable_of_iff _ (unnested_iff functions)

/-- The calls that are answered are those of registered functions that stand inside no other call;
all other text is kept. If no such call is nested, every call of a registered function whose
arguments hold no parenthesis and no semicolon is answered, wherever it stands. -/
theorem answerCalls_marked (text : Text) : ∃ pieces,
    answerCalls functions text = answered functions pieces ∧
    Marks (fun before call => Found before call ∧ functions.contains call.name = true) text
      pieces ∧
    (Unnested functions text → Marks (fun before call => Stands before call ∧
      functions.contains call.name = true ∧ '(' ∉ call.arguments) text pieces) := by
  have marks := (marks_cut text).keep functions
  refine ⟨(call?.cut text).flatMap (keep functions), ?_, marks, ?_⟩
  · rw [answerCalls_eq, answered_keep]
  · intro unnested
    apply marks.congr
    intro before call after split
    constructor
    · intro ⟨found, registered⟩
      exact ⟨found.1, registered, (unnested before call after split found.1 registered).1⟩
    · intro ⟨standing, registered, _⟩
      have exposed := (unnested before call after split standing registered).2
      exact ⟨⟨standing, exposed⟩, registered⟩

theorem answerCalls_marked_siblings :
    let functions := Table.empty.insert "twice".toList (Function.wrap ['2'] [])
    let text := "a: twice(4)px calc((1px + 2px) * twice(a, b)) my-twice(5) twice(c;".toList
    answerCalls functions text =
      .ok "a: 24px calc((1px + 2px) * 2a, b) my-twice(5) twice(c;".toList ∧
    Unnested functions text ∧ ∃ pieces, answerCalls functions text = answered functions pieces ∧
      Marks (fun before call => Stands before call ∧ functions.contains call.name = true ∧
        '(' ∉ call.arguments) text pieces := by
  intro functions text
  have unnested : Unnested functions text := by decide +kernel
  obtain ⟨pieces, answers, _, marks⟩ := answerCalls_marked functions text
  exact ⟨by rfl, unnested, pieces, answers, marks unnested⟩

/-- A call inside the parentheses of another one is passed over. -/
theorem answerCalls_nested :
    let functions := Table.empty.insert "double".toList (Function.const (.text ['8']))
    let call : Call := ⟨"double".toList, ['4']⟩
    "calc(double(4))".toList = "calc(".toList ++ (call.text ++ [')']) ∧
    Stands "calc(".toList call ∧ functions.contains call.name = true ∧ '(' ∉ call.arguments ∧
    answerCalls functions "calc(double(4))".toList = .ok "calc(double(4))".toList := by
  intro functions call
  have standing : call.Written ∧ Starts "calc(".toList := by decide +kernel
  exact ⟨rfl, standing, by decide +kernel, by decide, rfl⟩

end Flatsheet.Plugin
