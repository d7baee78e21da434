import Flatsheet.Proofs.IntactPasses

/-!
Block comments counted by depth. Comments that may nest are found by a search for the next opening
mark and a scan of the block from there. One pass that counts the marks keeps the same text, also
where two marks share a character, as in `/*/` and `*/*`. Where no comment holds a second opening
mark and none is left open, it makes no difference whether comments may nest.
-/

namespace Flatsheet.Comment

/-- What is kept of a text that starts at a depth, and the depth at its end. An opening mark adds one
to the depth and a closing mark takes one away, if there is one to take. Other characters are kept at
depth zero only. -/
def pass : (depth : Nat) → Text → Text × Nat
  | depth, '/' :: '*' :: text => pass (depth + 1) text
  | depth + 1, '*' :: '/' :: text => pass depth text
  | depth, c :: text =>
      (if depth = 0 then c :: (pass depth text).1 else (pass depth text).1, (pass depth text).2)
  | depth, [] => ([], depth)

section

variable {depth : Nat} {c : Char} {text : Text}

theorem startsWith_opening : text.startsWith "/*" = true ↔ ∃ rest, text = '/' :: '*' :: rest :=
  Text.startsWith_iff

theorem startsWith_closing : text.startsWith "*/" = true ↔ ∃ rest, text = '*' :: '/' :: rest :=
  Text.startsWith_iff

theorem not_opening :
    Text.startsWith (c :: text) "/*" = false ↔ ∀ rest, c = '/' → text = '*' :: rest → False := by
  rw [Bool.eq_false_iff, Ne, startsWith_opening, not_exists]
  simp only [List.cons.injEq, not_and]

theorem not_closing :
    Text.startsWith (c :: text) "*/" = false ↔ ∀ rest, c = '*' → text = '/' :: rest → False := by
  rw [Bool.eq_false_iff, Ne, startsWith_closing, not_exists]
  simp only [List.cons.injEq, not_and]

theorem pass_kept (unopened : Text.startsWith (c :: text) "/*" = false) :
    pass 0 (c :: text) = (c :: (pass 0 text).1, (pass 0 text).2) := by
  rw [pass, if_pos rfl]
  · exact not_opening.mp unopened
  · intro _ _ positive
    cases positive

theorem pass_dropped (unopened : Text.startsWith (c :: text) "/*" = false)
    (unclosed : Text.startsWith (c :: text) "*/" = false) :
    pass (depth + 1) (c :: text) = pass (depth + 1) text := by
  rw [pass, if_neg (Nat.succ_ne_zero depth)]
  · exact not_opening.mp unopened
  · intro _ rest _
    exact not_closing.mp unclosed rest

end

section

variable (depth position : Nat)

theorem scan_opening (text : Text) :
    Block.scan "/*" "*/" 0 depth position (Block.suffixes ('/' :: '*' :: text)) =
      Block.scan "/*" "*/" 0 (depth + 1 : Nat) (position + 2) (Block.suffixes text) :=
  rfl

theorem scan_closing_last (text : Text) :
    Block.scan "/*" "*/" 0 1 position (Block.suffixes ('*' :: '/' :: text)) =
      some (position + 2) :=
  rfl

theorem scan_closing (text : Text) :
    Block.scan "/*" "*/" 0 (depth + 2 : Nat) position (Block.suffixes ('*' :: '/' :: text)) =
      Block.scan "/*" "*/" 0 (depth + 1 : Nat) (position + 2) (Block.suffixes text) := by
  have deeper : ((depth + 2 : Nat) : Int) ≠ 1 := by omega
  have outer : ((depth + 2 : Nat) : Int) - 1 = (depth + 1 : Nat) := by omega
  rw [← outer]
  exact if_neg (t := some (position + 2)) deeper

theorem scan_other {c : Char} {text : Text} (unopened : Text.startsWith (c :: text) "/*" = false)
    (unclosed : Text.startsWith (c :: text) "*/" = false) :
    Block.scan "/*" "*/" 0 depth position (Block.suffixes (c :: text)) =
      Block.scan "/*" "*/" 0 depth (position + 1) (Block.suffixes text) := by
  rw [Block.suffixes, Block.scan, unopened, unclosed]
  rfl

end

/-- How the scan of a comment ends: it stops where the pass comes back to depth zero, or it does not
stop and the pass keeps nothing. -/
def Tracks (depth position : Nat) (text : Text) : Prop :=
  (Block.scan "/*" "*/" 0 depth position (Block.suffixes text) = none ∧
      (pass depth text).1 = []) ∨
    ∃ comment rest, text = comment ++ rest ∧
      Block.scan "/*" "*/" 0 depth position (Block.suffixes text) =
        some (position + comment.length) ∧
      pass depth text = pass 0 rest

theorem Tracks.step {depth depth' position : Nat} (mark : Text) {text : Text}
    (scanned : Block.scan "/*" "*/" 0 depth position (Block.suffixes (mark ++ text)) =
      Block.scan "/*" "*/" 0 depth' (position + mark.length) (Block.suffixes text))
    (passed : pass depth (mark ++ text) = pass depth' text)
    (tracks : Tracks depth' (position + mark.length) text) :
    Tracks depth position (mark ++ text) := by
  cases tracks with
  | inl endless => exact .inl ⟨scanned.trans endless.1, by rw [passed, endless.2]⟩
  | inr ended =>
      obtain ⟨comment, rest, split, found, kept⟩ := ended
      refine .inr ⟨mark ++ comment, rest, by rw [split, List.append_assoc], ?_, passed.trans kept⟩
      rw [scanned, found, List.length_append, Nat.add_assoc]

theorem tracks {depth : Nat} (inside : 0 < depth) (position : Nat) (text : Text) :
    Tracks depth position text := by
  induction depth, text using pass.induct generalizing position with
  | case1 depth text ih =>
      exact Tracks.step ['/', '*'] (scan_opening depth position text) rfl
        (ih (Nat.succ_pos depth) (position + 2))
  | case2 depth text ih =>
      cases depth with
      | zero => exact .inr ⟨['*', '/'], text, rfl, scan_closing_last position text, rfl⟩
      | succ outer =>
          exact Tracks.step ['*', '/'] (scan_closing outer position text) rfl
            (ih (Nat.succ_pos outer) (position + 2))
  | case3 depth c text opening closing ih =>
      obtain ⟨outer, rfl⟩ := Nat.exists_eq_add_one_of_ne_zero inside.ne'
      have unopened := not_opening.mpr opening
      have unclosed := not_closing.mpr fun rest => closing outer rest rfl
      exact Tracks.step [c] (scan_other (outer + 1) position unopened unclosed)
        (pass_dropped unopened unclosed) (ih inside (position + 1))
  | case4 depth => exact .inl ⟨rfl, rfl⟩

theorem pass_nestedBlock? {text rest : Text} {value : Unit}
    (found : nestedBlock? text = some (value, rest)) : (pass 0 text).1 = (pass 0 rest).1 := by
  unfold nestedBlock? at found
  split at found
  next opened =>
      obtain ⟨inside, rfl⟩ := startsWith_opening.mp opened
      have sized : Block.size? "/*" "*/" ('/' :: '*' :: inside) =
          Block.scan "/*" "*/" 0 (1 : Nat) 2 (Block.suffixes inside) := rfl
      cases tracks Nat.one_pos 2 inside with
      | inl endless =>
          rw [sized, endless.1] at found
          obtain rfl : [] = rest := by simpa using found
          exact endless.2
      | inr ended =>
          obtain ⟨comment, left, rfl, stops, passed⟩ := ended
          have dropped : ('/' :: '*' :: (comment ++ left)).drop (2 + comment.length) = left := by
            rw [Nat.add_comm, List.drop_succ_cons, List.drop_succ_cons, List.drop_left]
          rw [sized, stops] at found
          obtain rfl : left = rest := by simpa [dropped] using found
          exact congrArg Prod.fst passed
  · contradiction

theorem nestedBlock?_eq_none {text : Text} (missed : nestedBlock? text = none) :
    text.startsWith "/*" = false := by
  cases opened : text.startsWith "/*" with
  | false => rfl
  | true =>
      rw [nestedBlock?, if_pos opened] at missed
      split at missed <;> cases missed

theorem stripNested_eq (text : Text) : stripNested text = (pass 0 text).1 := by
  refine Pattern.cut_induction nestedBlock?_whole.proper (motive := fun text _ =>
    stripNested text = (pass 0 text).1) rfl ?_ ?_ text
  · intro c rest missed ih
    rw [pass_kept (nestedBlock?_eq_none missed), ← ih]
    exact Pattern.replace_of_none missed
  · intro source value rest covers found ih
    rw [pass_nestedBlock? found, ← ih]
    exact Pattern.replace_of_some covers found

/-- Where the depth is zero no mark is cut in two: a star there is not half of a closing mark. -/
theorem pass_append {depth : Nat} {before rest : Text} (ends : (pass depth before).2 = 0)
    (apart : rest.head? ≠ some '*') :
    pass depth (before ++ rest) = ((pass depth before).1 ++ (pass 0 rest).1, (pass 0 rest).2) := by
  induction depth, before using pass.induct with
  | case1 depth text ih => exact ih ends
  | case2 depth text ih => exact ih ends
  | case3 depth c text opening closing ih =>
      have unopened : Text.startsWith (c :: (text ++ rest)) "/*" = false := by
        apply not_opening.mpr
        intro after slash star
        cases text with
        | nil => exact apart (by rw [show rest = _ from star]; rfl)
        | cons d text => exact opening text slash (by rw [(List.cons.inj star).1])
      cases depth with
      | zero =>
          rw [pass_kept (not_opening.mpr opening)] at ends ⊢
          rw [List.cons_append, pass_kept unopened, ih ends]
          rfl
      | succ outer =>
          have unclosed := not_closing.mpr fun rest => closing outer rest rfl
          rw [pass_dropped (not_opening.mpr opening) unclosed] at ends ⊢
          have goesOn : Text.startsWith (c :: (text ++ rest)) "*/" = false := by
            apply not_closing.mpr
            intro after star slash
            cases text with
            | nil => cases ends
            | cons d text => exact closing outer text rfl star (by rw [(List.cons.inj slash).1])
          rw [List.cons_append, pass_dropped unopened goesOn, ih ends]
  | case4 depth =>
      obtain rfl : depth = 0 := ends
      rfl

theorem pass_unclosed {depth : Nat} {inside : Text} (positive : 0 < depth)
    (unclosed : ∀ front, front <+: inside → 0 < (pass depth front).2) :
    (pass depth inside).1 = [] := by
  induction depth, inside using pass.induct with
  | case1 depth text ih =>
      apply ih (Nat.succ_pos depth)
      intro front begins
      exact unclosed ('/' :: '*' :: front) (List.prefix_append_right_inj ['/', '*'] |>.mpr begins)
  | case2 depth text ih =>
      apply ih (unclosed ['*', '/'] ⟨text, rfl⟩)
      intro front begins
      exact unclosed ('*' :: '/' :: front) (List.prefix_append_right_inj ['*', '/'] |>.mpr begins)
  | case3 depth c text opening closing ih =>
      obtain ⟨outer, rfl⟩ := Nat.exists_eq_add_one_of_ne_zero positive.ne'
      have unopened := not_opening.mpr opening
      have goesOn := not_closing.mpr fun rest => closing outer rest rfl
      rw [pass_dropped unopened goesOn]
      apply ih positive
      intro front begins
      have longer : c :: front <+: c :: text := List.cons_prefix_cons.mpr ⟨rfl, begins⟩
      have deep := unclosed (c :: front) longer
      rwa [pass_dropped (Text.startsWith_shorter longer unopened)
        (Text.startsWith_shorter longer goesOn)] at deep
  | case4 depth => rfl

/-- Comments that may nest are removed by counting: one pass from left to right, at depth zero at
first, keeps what is left. A comment that is opened at depth zero and never brought back to it runs
to the end of the text. -/
theorem stripNested_eq_pass (text : Text) :
    stripNested text = (pass 0 text).1 ∧
      ∀ before inside, text = before ++ '/' :: '*' :: inside → (pass 0 before).2 = 0 →
        (∀ front, front <+: inside → 0 < (pass 1 front).2) →
        stripNested text = stripNested before := by
  refine ⟨stripNested_eq text, ?_⟩
  intro before inside split outside unclosed
  have dropped : (pass 1 inside).1 = [] := pass_unclosed Nat.one_pos unclosed
  have opened : pass 0 ('/' :: '*' :: inside) = pass 1 inside := rfl
  rw [stripNested_eq, stripNested_eq, split, pass_append outside (by simp), opened,
    dropped, List.append_nil]

/-- Marks that share a character, a closing mark outside of comments, and a comment left open
although the one inside it is closed. -/
theorem stripNested_eq_pass_shared :
    let before : Text := "a/*/b*/c*/d/**/*e//"
    let inside : Text := "/ f /* g */ h *"
    stripNested (before ++ '/' :: '*' :: inside) = "ac*/d*e//".toList ∧
      (pass 0 before).2 = 0 ∧ (∀ front ∈ inside.inits, 0 < (pass 1 front).2) ∧
      stripNested (before ++ '/' :: '*' :: inside) = stripNested before := by
  intro before inside
  have outside : (pass 0 before).2 = 0 := by decide +kernel
  have unclosed : ∀ front ∈ inside.inits, 0 < (pass 1 front).2 := by decide +kernel
  have kept := stripNested_eq_pass (before ++ '/' :: '*' :: inside)
  refine ⟨kept.1.trans (by decide +kernel), outside, unclosed, kept.2 before inside rfl outside ?_⟩
  intro front begins
  exact unclosed front ((List.mem_inits _ _).mpr begins)

/-- The comments among the pieces of a text. -/
def spans : List (Piece Unit) → List Text
  | [] => []
  | .char _ :: pieces => spans pieces
  | .hit _ span :: pieces => span :: spans pieces

/-- What follows the last comment, or all of the text if there is none. -/
def trailing : List (Piece Unit) → Text
  | [] => []
  | .char c :: pieces => if spans pieces = [] then c :: trailing pieces else trailing pieces
  | .hit _ _ :: pieces => trailing pieces

/-- No opening mark stands in the text. -/
def Unopened (text : Text) : Prop := ∀ tail ∈ text.tails, Text.startsWith tail "/*" = false

instance (text : Text) : Decidable (Unopened text) := List.decidableBAll _ text.tails

/-- Each comment that ends at its first closing mark has its only opening mark at its start, and no
opening mark comes after the last of them. -/
structure Unnested (text : Text) : Prop where
  inside : ∀ span ∈ spans (block?.cut text), Unopened span.tail
  after : Unopened (trailing (block?.cut text))

instance (text : Text) : Decidable (Unnested text) :=
  @decidable_of_iff _ ((∀ span ∈ spans (block?.cut text), Unopened span.tail) ∧
    Unopened (trailing (block?.cut text))) ⟨fun both => ⟨both.1, both.2⟩, fun h => ⟨h.1, h.2⟩⟩
    (@instDecidableAnd _ _ (List.decidableBAll _ _) _)

theorem Unopened.tail {c : Char} {text : Text} (unopened : Unopened (c :: text)) : Unopened text :=
  fun tail member => unopened tail (by rw [List.tails_cons]; exact List.mem_cons_of_mem _ member)

theorem trailing_chars (text : Text) :
    spans (text.map .char) = [] ∧ trailing (text.map .char) = text := by
  induction text with
  | nil => exact ⟨rfl, rfl⟩
  | cons c text ih =>
      refine ⟨ih.1, ?_⟩
      rw [List.map_cons, trailing, if_pos ih.1, ih.2]

theorem block?_opening {inside : Text} (missed : block? ('/' :: '*' :: inside) = none) :
    block?.cut ('/' :: '*' :: inside) = ('/' :: '*' :: inside).map .char := by
  have endless : Text.afterFirst? "*/" inside = none := by
    have opened : block? ('/' :: '*' :: inside) =
        (Text.afterFirst? "*/" inside).bind fun rest => some ((), rest) := rfl
    rw [opened, Option.bind_eq_none_iff] at missed
    exact Option.eq_none_iff_forall_not_mem.mpr fun rest found =>
      Option.some_ne_none _ (missed rest found)
  apply Pattern.cut_of_absent
  intro start suffix
  rw [Option.eq_none_iff_forall_ne_some]
  intro result matched
  have found : block? start = some (result.1, result.2) := matched
  obtain ⟨within, split⟩ := block?_eq_some found
  have shape : start = '/' :: '*' :: (within ++ ("*/".toList ++ result.2)) := by
    rw [split]
    simp
  have unclosed := Text.afterFirst?_eq_none endless
  rw [List.suffix_cons_iff, List.suffix_cons_iff] at suffix
  rcases suffix with whole | second | behind
  · rw [shape] at whole
    exact unclosed within result.2 (List.cons.inj (List.cons.inj whole).2).2.symm
  · rw [shape] at second
    cases (List.cons.inj second).1
  · obtain ⟨front, split⟩ := behind
    apply unclosed (front ++ '/' :: '*' :: within) result.2
    rw [← split, shape, List.append_assoc]
    rfl

theorem pass_afterFirst? {text rest : Text} (found : Text.afterFirst? "*/" text = some rest) :
    ∃ before, text = before ++ ("*/".toList ++ rest) ∧
      (Unopened (before ++ "*/".toList) → pass 1 text = pass 0 rest) := by
  induction text with
  | nil => cases found
  | cons c text ih =>
      rw [Text.afterFirst?, Option.or_eq_some_iff] at found
      cases found with
      | inl here =>
          have split := Text.dropPrefix?_eq_some.mp here
          exact ⟨[], split, fun _ => by rw [split]; rfl⟩
      | inr later =>
          obtain ⟨missed, later⟩ := later
          obtain ⟨before, split, passed⟩ := ih later
          refine ⟨c :: before, by rw [split]; rfl, fun unopened => ?_⟩
          have unclosed : Text.startsWith (c :: text) "*/" = false := by
            rw [Text.startsWith, missed]
            rfl
          have goesOn : Text.startsWith (c :: text) "/*" = false := by
            apply not_opening.mpr
            intro more slash star
            have start := not_opening.mp (unopened (c :: (before ++ "*/".toList)) (by simp))
            cases before with
            | nil => exact start ['/'] slash rfl
            | cons d before =>
                rw [split] at star
                exact start (before ++ "*/".toList) slash (by rw [← (List.cons.inj star).1]; rfl)
          rw [pass_dropped goesOn unclosed]
          exact passed unopened.tail

theorem pass_block? {source rest : Text} {value : Unit}
    (found : block? (source ++ rest) = some (value, rest)) (unopened : Unopened source.tail) :
    pass 0 (source ++ rest) = pass 0 rest := by
  simp only [block?, Option.bind_eq_bind, Option.bind_eq_some_iff, Option.pure_def] at found
  obtain ⟨inside, opened, left, closed, same⟩ := found
  obtain rfl : left = rest := by simpa using same
  obtain ⟨before, split, passed⟩ := pass_afterFirst? closed
  have whole : source ++ left = "/*".toList ++ inside := Text.dropPrefix?_eq_some.mp opened
  have covered : source = '/' :: '*' :: (before ++ "*/".toList) := by
    refine List.append_cancel_right (whole.trans ?_)
    rw [split]
    simp
  rw [whole]
  apply passed
  rw [covered] at unopened
  exact unopened.tail

theorem erase_block? {text : Text} (unnested : Unnested text) :
    block?.erase text = (pass 0 text).1 := by
  obtain ⟨inside, after⟩ := unnested
  revert inside after
  refine Pattern.cut_induction block?_whole.proper (motive := fun text pieces =>
    (∀ span ∈ spans pieces, Unopened span.tail) → Unopened (trailing pieces) →
      block?.erase text = (pass 0 text).1) (fun _ _ => rfl) ?_ ?_ text
  · intro c rest missed ih inside after
    have unopened : Text.startsWith (c :: rest) "/*" = false := by
      cases opened : Text.startsWith (c :: rest) "/*" with
      | false => rfl
      | true =>
          obtain ⟨left, same⟩ := startsWith_opening.mp opened
          rw [← Pattern.cut_of_none missed, same, block?_opening (same ▸ missed),
            (trailing_chars _).2] at after
          rw [← opened, same]
          exact after _ (by simp)
    have later : Unopened (trailing (block?.cut rest)) := by
      rw [trailing] at after
      split at after
      · exact after.tail
      · exact after
    rw [pass_kept unopened, ← ih inside later]
    exact Pattern.replace_of_none missed
  · intro source value rest covers found ih inside after
    have here : Unopened source.tail := inside source (by simp [spans])
    have later := ih (fun span member => inside span (by simp [spans, member])) after
    rw [pass_block? found here, ← later]
    exact Pattern.replace_of_some covers found

/-- Where no comment holds a second opening mark and none is left open, comments are removed alike
whether they may nest or not. -/
theorem strip_nested_eq {text : Text} (unnested : Unnested text) :
    strip true text = strip false text := by
  have same : stripNested text = block?.erase text := by
    rw [stripNested_eq, erase_block? unnested]
  exact congrArg line?.erase same

/-- Marks that share a character, and a line comment that holds a closing mark. -/
theorem strip_nested_eq_shared :
    let text : Text := "a /*/ b */* c */ // */ d /**/\n/*** e **/f/"
    Unnested text ∧ strip false text = "a * c */ \nf/".toList ∧
      strip true text = strip false text := by
  intro text
  have unnested : Unnested text := by decide +kernel
  exact ⟨unnested, by decide +kernel, strip_nested_eq unnested⟩

end Flatsheet.Comment
