import Flatsheet.Conversion.Context
import Flatsheet.Proofs.Headings
import Flatsheet.Proofs.IntactPasses
import Flatsheet.Proofs.Runs

/-!
Repair of missing semicolons. The repair only inserts: the text is cut at the ends of its unended
declarations, and one semicolon goes in at each cut. A declaration may begin inside another one, with
the last word of its value, and is then passed over; but the semicolon comes between that word and
its colon. So nothing is left to repair, and a second run does nothing.
-/

namespace Flatsheet.Declaration

open Text (Blank)
open Pattern

theorem not_isWord_of_isBlank {c : Char} (blank : isBlank c = true) : isWord c = false := by
  have unnamed := not_isName_of_isBlank blank
  rw [isName, Bool.or_eq_false_iff] at unnamed
  exact unnamed.1

theorem not_isBlank_of_isValue {c : Char} (value : isValue c = true) : isBlank c = false := by
  cases blank : isBlank c with
  | false => rfl
  | true =>
      simp only [isValue, not_isWord_of_isBlank blank, Bool.or_eq_true, beq_iff_eq,
        Bool.false_eq_true, false_or] at value
      rcases value with ((rfl | rfl) | rfl) | rfl <;> exact absurd blank (by decide)

theorem not_isValue_of_ends {c : Char} (ends : c = '}' ∨ c = '\n') : isValue c = false := by
  rcases ends with rfl | rfl <;> decide +kernel

theorem Stops.not_isValue_head {rest : Text} (stops : Stops rest) :
    ∀ c ∈ rest.head?, isValue c = false := by
  obtain ⟨spaces, c, left, blank, ends, rfl⟩ := stops
  cases spaces with
  | nil => exact Text.head?_cons_fails (not_isValue_of_ends ends) left
  | cons space spaces =>
      rw [blank space (by simp)]
      exact Text.head?_cons_fails (by decide +kernel) _

theorem Stops.dropWhile {rest : Text} (stops : Stops rest) :
    ∃ c left, (c = '}' ∨ c = '\n') ∧ rest.dropWhile (· = ' ') = c :: left := by
  obtain ⟨spaces, c, left, blank, ends, rfl⟩ := stops
  refine ⟨c, left, ends, (Text.span_append (fun space member => ?_) ?_).2⟩
  · exact decide_eq_true (blank space member)
  · apply Text.head?_cons_fails
    rcases ends with rfl | rfl <;> decide

theorem trimLeft_value {space value : Text} (blank : Blank space) (nonempty : value ≠ [])
    (word : ∀ c ∈ value, isValue c = true) (rest : Text) :
    (space ++ (value ++ rest)).trimLeft = value ++ rest := by
  obtain ⟨c, value, rfl⟩ := List.exists_cons_of_ne_nil nonempty
  have solid := not_isBlank_of_isValue (word c (by simp))
  rw [Text.trimLeft_append blank, List.cons_append, Text.trimLeft,
    List.dropWhile_cons_of_neg (by simp [solid])]

theorem unended?_written {declaration rest : Text} (pair : Pair declaration) (stops : Stops rest) :
    unended? (declaration ++ rest) = some (declaration, rest) := by
  obtain ⟨name, gap, space, value, nonempty, inside, gapBlank, spaceBlank, valueSome, word, same⟩ :=
    pair
  have whole : declaration ++ rest = name ++ (gap ++ ':' :: (space ++ (value ++ rest))) := by
    simp [same]
  have named : Text.run? isWord (declaration ++ rest) =
      some (name, gap ++ ':' :: (space ++ (value ++ rest))) := by
    apply Text.run?_eq_some.mpr
    refine ⟨whole, nonempty, inside, ?_⟩
    cases gap with
    | nil => exact Text.head?_cons_fails (by decide +kernel) _
    | cons b gap => exact Text.head?_cons_fails (not_isWord_of_isBlank (gapBlank b (by simp))) _
  have colon : Text.dropPrefix? [':'] (gap ++ ':' :: (space ++ (value ++ rest))).trimLeft =
      some (space ++ (value ++ rest)) := by
    rw [Text.trimLeft_append gapBlank]
    rfl
  have valued : Text.run? isValue (space ++ (value ++ rest)).trimLeft = some (value, rest) := by
    rw [trimLeft_value spaceBlank valueSome word]
    exact Text.run?_eq_some.mpr ⟨rfl, valueSome, word, stops.not_isValue_head⟩
  have taken : (declaration ++ rest).take ((declaration ++ rest).length - rest.length) =
      declaration := by
    rw [List.length_append, Nat.add_sub_cancel, List.take_left]
  obtain ⟨c, left, ends, dropped⟩ := stops.dropWhile
  simp only [unended?, named, colon, valued, dropped, taken, Option.bind_eq_bind, Option.bind_some]
  cases ends with
  | inl brace => rw [brace]; rfl
  | inr newline => rw [newline]; rfl

theorem unended?_of_ne_word {c : Char} (other : isWord c = false) (text : Text) :
    unended? (c :: text) = none := by
  simp [unended?, Text.run?, other]

theorem not_mem_pair {declaration : Text} (pair : Pair declaration) : ';' ∉ declaration := by
  obtain ⟨name, gap, space, value, _, inside, gapBlank, spaceBlank, _, word, rfl⟩ := pair
  have unnamed : ';' ∉ name := fun member => absurd (inside ';' member) (by decide +kernel)
  have solid : ∀ blanks, Blank blanks → ';' ∉ blanks := fun blanks blank member =>
    absurd (blank ';' member) (by decide)
  have unvalued : ';' ∉ value := fun member => absurd (word ';' member) (by decide +kernel)
  simp [unnamed, solid gap gapBlank, solid space spaceBlank, unvalued]

/-- What is unended before a semicolon stops before it. -/
theorem unended?_before {front tail : Text} (found : unended? (front ++ ';' :: tail) ≠ none) :
    ∃ declaration after, Pair declaration ∧ Stops after ∧ front = declaration ++ after := by
  obtain ⟨result, matched⟩ := Option.ne_none_iff_exists'.mp found
  have found : unended? (front ++ ';' :: tail) = some (result.1, result.2) := matched
  obtain ⟨pair, stops, split⟩ := unended?_eq_some found
  obtain ⟨spaces, c, left, blank, ends, stopped⟩ := stops
  have absent : ';' ∉ result.1 ++ (spaces ++ [c]) := by
    have unspaced : ';' ∉ spaces := fun member => absurd (blank ';' member) (by decide)
    have other : ';' ≠ c := by rcases ends with rfl | rfl <;> decide
    simp [not_mem_pair pair, unspaced, other]
  have split : front ++ ';' :: tail = result.1 ++ (spaces ++ [c]) ++ left := by
    rw [split, stopped]
    simp
  obtain ⟨more, rfl⟩ := Text.split_before_mark absent split
  exact ⟨result.1, spaces ++ c :: more, pair, ⟨spaces, c, more, blank, ends, rfl⟩, by simp⟩

theorem Pair.colon {declaration : Text} (pair : Pair declaration) :
    ∃ (front back : Text), declaration = front ++ ':' :: back ∧ ':' ∉ front ∧ ':' ∉ back ∧
      back.trimLeft ≠ [] ∧ ∀ c ∈ back.trimLeft, isValue c = true := by
  obtain ⟨name, gap, space, value, _, inside, gapBlank, spaceBlank, nonempty, word, rfl⟩ := pair
  have unnamed : ':' ∉ name := fun member => absurd (inside ':' member) (by decide +kernel)
  have unvalued : ':' ∉ value := fun member => absurd (word ':' member) (by decide +kernel)
  have solid (blanks : Text) (blank : Blank blanks) : ':' ∉ blanks := fun member =>
    absurd (blank ':' member) (by decide)
  have trimmed : (space ++ value).trimLeft = value := by
    simpa using trimLeft_value spaceBlank nonempty word []
  refine ⟨name ++ gap, space ++ value, by simp, by simp [unnamed, solid gap gapBlank],
    by simp [unvalued, solid space spaceBlank], ?_, ?_⟩
  · rwa [trimmed]
  · rwa [trimmed]

/-- No declaration stops inside another one: the two would share their colon. -/
theorem Pair.not_stops {before declaration after : Text}
    (outer : Pair (before ++ (declaration ++ after))) (inner : Pair declaration) :
    ¬ Stops after := by
  intro stops
  obtain ⟨front, back, whole, early, late, _, word⟩ := outer.colon
  obtain ⟨front', back', rfl, _, _, nonempty, _⟩ := inner.colon
  have split : before ++ front' ++ ':' :: (back' ++ after) = front ++ ':' :: back := by
    rw [← whole]
    simp
  obtain ⟨more, same⟩ := Text.split_before_mark early split
  rw [same, List.append_assoc] at split
  have behind : back' ++ after = back := by
    cases more with
    | nil => exact (List.cons.inj (List.append_cancel_left split)).2
    | cons c more =>
        have second := (List.cons.inj (List.append_cancel_left split)).2
        exact absurd (by simp [← second]) late
  obtain ⟨first, rest, trimmed⟩ := List.exists_cons_of_ne_nil nonempty
  obtain ⟨spaces, c, left, _, ends, rfl⟩ := stops
  have value := word c (by
    rw [← behind, Text.trimLeft_append_of_cons trimmed]
    simp)
  rw [not_isValue_of_ends ends] at value
  cases value

/-- The text with a semicolon after each of its unended declarations. -/
def mended (text : Text) : Text := unended?.replace (· ++ [';']) text

theorem mended_of_none {c : Char} {rest : Text} (missed : unended? (c :: rest) = none) :
    mended (c :: rest) = c :: mended rest :=
  replace_of_none missed

theorem mended_written {declaration rest : Text} (pair : Pair declaration) (stops : Stops rest) :
    mended (declaration ++ rest) = declaration ++ ';' :: mended rest := by
  have covers : declaration ≠ [] := by
    obtain ⟨front, back, rfl, _⟩ := pair.colon
    simp
  rw [mended, replace_of_some covers (unended?_written pair stops), List.append_assoc]
  rfl

/-- Up to the first semicolon that is put in, the text is as it was. -/
theorem mended_split (text : Text) :
    mended text = text ∨
      ∃ front rest tail, text = front ++ rest ∧ mended text = front ++ ';' :: tail := by
  refine cut_induction unended?_whole.proper (motive := fun text _ => mended text = text ∨
    ∃ front rest tail, text = front ++ rest ∧ mended text = front ++ ';' :: tail) (.inl rfl) ?_ ?_
    text
  · intro c rest missed ih
    rw [mended_of_none missed]
    cases ih with
    | inl same => exact .inl (by rw [same])
    | inr put =>
        obtain ⟨front, left, tail, split, changed⟩ := put
        exact .inr ⟨c :: front, left, tail, by rw [split]; rfl, by rw [changed]; rfl⟩
  · intro source declaration rest _ found _
    obtain ⟨pair, stops, same⟩ := unended?_eq_some found
    rw [same]
    exact .inr ⟨declaration, rest, mended rest, rfl, mended_written pair stops⟩

/-- What is found before a repaired text stops before the first semicolon put in, so it was there
before the repair. -/
theorem unended?_mended {c : Char} {rest : Text} (missed : unended? (c :: rest) = none) :
    unended? (c :: mended rest) = none := by
  cases mended_split rest with
  | inl same => rwa [same]
  | inr put =>
      obtain ⟨front, left, tail, split, changed⟩ := put
      rw [changed]
      by_contra matched
      have found : unended? (c :: front ++ ';' :: tail) ≠ none := matched
      obtain ⟨declaration, after, pair, stops, same⟩ := unended?_before found
      obtain ⟨spaces, d, more, blank, ends, rfl⟩ := stops
      have whole : c :: rest = declaration ++ (spaces ++ d :: (more ++ left)) := by
        rw [split, ← List.cons_append, same]
        simp
      rw [whole, unended?_written pair ⟨spaces, d, more ++ left, blank, ends, rfl⟩] at missed
      cases missed

/-- No unended declaration is left in the repaired text. -/
theorem unended?_absent (text : Text) :
    ∀ start, start <:+ mended text → unended? start = none := by
  refine cut_induction unended?_whole.proper (motive := fun text _ =>
    ∀ start, start <:+ mended text → unended? start = none) ?_ ?_ ?_ text
  · intro start suffix
    rw [List.suffix_nil.mp suffix]
    rfl
  · intro c rest missed ih start suffix
    rw [mended_of_none missed, List.suffix_cons_iff] at suffix
    cases suffix with
    | inl whole =>
        rw [whole]
        exact unended?_mended missed
    | inr later => exact ih start later
  · intro source declaration rest _ found ih start suffix
    obtain ⟨pair, stops, same⟩ := unended?_eq_some found
    rw [same, mended_written pair stops] at suffix
    cases Text.suffix_append suffix with
    | inl later =>
        rw [List.suffix_cons_iff] at later
        cases later with
        | inl semicolon =>
            rw [semicolon]
            exact unended?_of_ne_word (by decide +kernel) _
        | inr behind => exact ih start behind
    | inr within =>
        obtain ⟨inner, ⟨before, split⟩, _, rfl⟩ := within
        by_contra found
        obtain ⟨declaration', after, pair', stops', rfl⟩ := unended?_before found
        rw [← split] at pair
        exact pair.not_stops pair' stops'

/-- An unended declaration, and what comes after it up to the next one. -/
structure Repair where
  declaration : Text
  after : Text
  pair : Pair declaration
  stops : Stops after

namespace Repair

def given (repair : Repair) : Text := repair.declaration ++ repair.after

def repaired (repair : Repair) : Text := repair.declaration ++ ';' :: repair.after

end Repair

/-- One notice for each repair, in order. It gives the line on which the declaration starts, where
the first one starts at `offset`, and shows the declaration with its literals. -/
inductive Reports (vault : Vault) (text : Text) : (offset : Nat) → List Repair → List Notice → Prop
  | nil (offset : Nat) : Reports vault text offset [] []
  | cons {offset : Nat} {repair : Repair} {repairs : List Repair} {notices : List Notice}
      {restored : Text} (shown : vault.restore repair.declaration = .ok restored)
      (later : Reports vault text (offset + repair.given.length) repairs notices) :
      Reports vault text offset (repair :: repairs)
        (⟨.missingSemicolon restored, some (text.lineAt offset), some repair.declaration⟩ :: notices)

/-- What stops before a text that starts with a word stops without it. -/
theorem Stops.of_append {front rest : Text} (stops : Stops (front ++ rest))
    (word : ∀ c ∈ rest.head?, isWord c = true) : Stops front := by
  obtain ⟨spaces, c, left, blank, ends, split⟩ := stops
  have starts {d : Char} {more : Text} (other : isWord d = false) : rest ≠ d :: more := by
    intro same
    have first := word d (by rw [same]; rfl)
    rw [other] at first
    cases first
  have unended : isWord c = false := by
    rcases ends with rfl | rfl <;> decide +kernel
  cases List.append_eq_append_iff.mp split with
  | inl spaced =>
      obtain ⟨more, within, behind⟩ := spaced
      cases more with
      | nil => exact absurd behind (starts unended)
      | cons space more =>
          have other : isWord space = false := by
            rw [blank space (by simp [within])]
            decide +kernel
          exact absurd behind (starts other)
  | inr stopped =>
      obtain ⟨more, within, behind⟩ := stopped
      cases more with
      | nil => exact absurd behind.symm (starts unended)
      | cons d more =>
          obtain ⟨rfl, _⟩ := List.cons.inj behind
          exact ⟨spaces, c, more, blank, ends, within⟩

theorem head?_given (repairs : List Repair) :
    ∀ c ∈ (repairs.flatMap Repair.given).head?, isWord c = true := by
  intro c first
  cases repairs with
  | nil => cases first
  | cons repair repairs =>
      obtain ⟨name, gap, space, value, nonempty, inside, _, _, _, _, shape⟩ := repair.pair
      obtain ⟨d, name, rfl⟩ := List.exists_cons_of_ne_nil nonempty
      obtain rfl : d = c := by simpa [Repair.given, shape] using first
      exact inside d (by simp)

def Repair.pieces (repair : Repair) : List (Piece Text) :=
  .hit repair.declaration repair.declaration :: repair.after.map .char

/-- A text is cut at its repairs. -/
theorem exists_repairs (text : Text) :
    ∃ (front : Text) (repairs : List Repair),
      text = front ++ repairs.flatMap Repair.given ∧
      mended text = front ++ repairs.flatMap Repair.repaired ∧
      unended?.cut text = front.map .char ++ repairs.flatMap Repair.pieces := by
  refine cut_induction unended?_whole.proper (motive := fun text pieces =>
    ∃ (front : Text) (repairs : List Repair), text = front ++ repairs.flatMap Repair.given ∧
      mended text = front ++ repairs.flatMap Repair.repaired ∧
      pieces = front.map .char ++ repairs.flatMap Repair.pieces) ?_ ?_ ?_ text
  · exact ⟨[], [], rfl, rfl, rfl⟩
  · intro c rest missed ih
    obtain ⟨front, repairs, split, changed, cut⟩ := ih
    refine ⟨c :: front, repairs, by rw [split]; rfl, ?_, by rw [cut]; rfl⟩
    rw [mended_of_none missed, changed]
    rfl
  · intro source declaration rest _ found ih
    obtain ⟨front, repairs, split, changed, cut⟩ := ih
    obtain ⟨pair, stops, same⟩ := unended?_eq_some found
    obtain rfl := List.append_cancel_right same
    have after : Stops front := (split ▸ stops).of_append (head?_given repairs)
    refine ⟨[], ⟨source, front, pair, after⟩ :: repairs, ?_, ?_, ?_⟩
    · rw [split]
      simp [Repair.given]
    · rw [mended_written pair stops, changed]
      simp [Repair.repaired]
    · rw [cut]
      simp [Repair.pieces]

theorem lineAt_length (before rest : Text) :
    (before ++ rest).lineAt before.length = 1 + Text.newlines before := by
  rw [Text.lineAt, Int.toNat_natCast, List.take_left, Nat.add_comm]

/-- Over the pieces from one repair on, the repair puts in every semicolon and reports it. -/
theorem run_repairs {vault : Vault}
    {replace : Nat → Text → Text → ExceptT Fault (StateM (List Notice)) Text}
    (runs : ∀ line source declaration restored notices, vault.restore declaration = .ok restored →
      (replace line declaration source).run.run notices = (.ok (declaration ++ [';']),
        notices ++ [⟨.missingSemicolon restored, some line, some declaration⟩]))
    {repairs : List Repair}
    (restorable : ∀ repair ∈ repairs, ∃ restored, vault.restore repair.declaration = .ok restored)
    (before : Text) (notices : List Notice) :
    ∃ added, Reports vault (before ++ repairs.flatMap Repair.given) before.length repairs added ∧
      (replacePieces replace (1 + Text.newlines before)
          (repairs.flatMap Repair.pieces)).run.run notices =
        (.ok (repairs.flatMap Repair.repaired), notices ++ added) := by
  induction repairs generalizing before notices with
  | nil => exact ⟨[], .nil _, by rw [List.append_nil]; rfl⟩
  | cons repair repairs ih =>
      obtain ⟨restored, shown⟩ := restorable repair (by simp)
      let notice : Notice := ⟨.missingSemicolon restored, some (1 + Text.newlines before : Nat),
        some repair.declaration⟩
      obtain ⟨added, reports, ran⟩ := ih (fun repair member => restorable repair (by simp [member]))
        (before ++ repair.given) (notices ++ [notice])
      refine ⟨notice :: added, ?_, ?_⟩
      · rw [List.append_assoc, List.length_append] at reports
        have first := Reports.cons shown reports
        rwa [lineAt_length] at first
      · rw [Repair.given, Text.newlines_append, Text.newlines_append, ← Nat.add_assoc,
          ← Nat.add_assoc] at ran
        have here : (replace (1 + Text.newlines before) repair.declaration
            repair.declaration).run.run notices =
            (.ok (repair.declaration ++ [';']), notices ++ [notice]) :=
          runs _ _ _ _ _ shown
        have later := run_replacePieces_chars repair.after ran
        rw [List.flatMap_cons, Repair.pieces, List.cons_append, replacePieces, run_bind_of_ok here,
          run_bind_of_ok later]
        simp only [List.flatMap_cons, Repair.repaired, List.append_assoc, List.cons_append]
        rfl

theorem run_endAll {vault : Vault} {text : Text} (intact : Vault.Intact False 0 vault.size text) :
    ∃ (front : Text) (repairs : List Repair), text = front ++ repairs.flatMap Repair.given ∧
      mended text = front ++ repairs.flatMap Repair.repaired ∧
      ∃ notices, Reports vault text front.length repairs notices ∧
        (endAll vault text).run.run [] = (.ok (mended text), notices) := by
  obtain ⟨front, repairs, split, changed, cut⟩ := exists_repairs text
  have restorable : ∀ repair ∈ repairs, ∃ restored,
      vault.restore repair.declaration = .ok restored := by
    intro repair member
    have hit : .hit repair.declaration repair.declaration ∈ unended?.cut text := by
      rw [cut]
      apply List.mem_append_right
      exact List.mem_flatMap.mpr ⟨repair, member, List.mem_cons_self⟩
    obtain ⟨before, rest, same, found⟩ := split_of_mem_cut unended?_whole.proper hit
    rw [same] at intact
    exact Vault.restore_of_intact (unended?_whole.splits found intact).2.1
  refine ⟨front, repairs, split, changed, ?_⟩
  rw [endAll, replaceM, cut, changed, split]
  refine (run_repairs ?_ restorable front []).imp fun notices =>
    And.imp_right (run_replacePieces_chars front)
  intro line source declaration restored notices shown
  simp only [shown]
  rfl

/-- A text with nothing to repair is left alone, whatever the vault. -/
theorem endAll_of_absent {text : Text} (absent : ∀ start, start <:+ text → unended? start = none)
    (vault : Vault) : (endAll vault text).run.run [] = (.ok text, []) := by
  rw [endAll, replaceM, cut_of_absent absent, ← List.append_nil (text.map _)]
  exact (run_replacePieces_chars text rfl).trans (by rw [List.append_nil])

end Flatsheet.Declaration

namespace Flatsheet.Conversion

open Declaration

theorem run_endDeclarations (text : Text) (context : Context) :
    (endDeclarations text).run.run context =
      let (result, notices) := (endAll context.vault text).run.run []
      (result, context.report notices) :=
  rfl

/-- The repair puts one semicolon behind each unended declaration, before the spaces and the brace or
line feed that stop it, and reports each. Then nothing is left to repair, and a second run gives back
the text without a report. -/
theorem endDeclarations_settles {text : Text} {context : Context}
    (wellFormed : Vault.WellFormed context.vault.size text) :
    ∃ (front : Text) (repairs : List Repair) (notices : List Notice),
      text = front ++ repairs.flatMap Repair.given ∧
      Reports context.vault text front.length repairs notices ∧
      (endDeclarations text).run.run context =
        (.ok (front ++ repairs.flatMap Repair.repaired), context.report notices) ∧
      (∀ start, start <:+ front ++ repairs.flatMap Repair.repaired → unended? start = none) ∧
      ∀ again : Context, (endDeclarations (front ++ repairs.flatMap Repair.repaired)).run.run again =
        (.ok (front ++ repairs.flatMap Repair.repaired), again) := by
  obtain ⟨front, repairs, split, changed, notices, reports, ran⟩ := run_endAll wellFormed.intact
  have absent := unended?_absent text
  rw [changed] at absent ran
  refine ⟨front, repairs, notices, split, reports, ?_, absent, ?_⟩
  · rw [run_endDeclarations, ran]
  · intro again
    rw [run_endDeclarations, endAll_of_absent absent]
    simp [Context.report]

/-- A declaration that begins with the value of the one before it, and one with a literal for its
value. -/
theorem endDeclarations_settles_overlap :
    let context : Context := { Context.start none .default Plugins.none (.ofTable .empty) .empty with
      vault := ⟨["'x'".toList]⟩ }
    let text : Text := "a: b\n: c \x7d\nd:e: ".toList ++ (Vault.placeholder 1 ++ " \x7d".toList)
    let result : Text := "a: b;\n: c \x7d\nd:e: ".toList ++ (Vault.placeholder 1 ++ "; \x7d".toList)
    Vault.WellFormed context.vault.size text ∧
      unended? "b\n: c \x7d".toList = some ("b\n: c".toList, " \x7d".toList) ∧
      (endDeclarations text).run.run context =
        (.ok result, context.report [⟨.missingSemicolon "a: b".toList, some 1, some "a: b".toList⟩,
          ⟨.missingSemicolon "e: 'x'".toList, some 3,
            some ("e: ".toList ++ Vault.placeholder 1)⟩]) ∧
      (∀ start, start <:+ result → unended? start = none) ∧
      ∀ again : Context, (endDeclarations result).run.run again = (.ok result, again) := by
  intro context text result
  have wellFormed : Vault.WellFormed context.vault.size text := by
    apply Vault.Intact.wellFormed
    refine (Vault.Intact.of_unmarked (by decide)).append (.placeholder (by decide) (by decide) ?_)
    exact .of_unmarked (by decide)
  have ends : (endAll context.vault text).run.run [] =
      (.ok result, [⟨.missingSemicolon "a: b".toList, some 1, some "a: b".toList⟩,
        ⟨.missingSemicolon "e: 'x'".toList, some 3,
          some ("e: ".toList ++ Vault.placeholder 1)⟩]) :=
    Prod.ext (by decide +kernel) (by decide +kernel)
  obtain ⟨front, repairs, notices, _, _, ran, absent, again⟩ := endDeclarations_settles wellFormed
  rw [run_endDeclarations, ends] at ran ⊢
  have same : result = front ++ repairs.flatMap Repair.repaired :=
    Except.ok.inj (congrArg Prod.fst ran)
  rw [← same] at absent again
  exact ⟨wellFormed, by decide +kernel, rfl, absent, again⟩

end Flatsheet.Conversion
