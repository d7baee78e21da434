import Flatsheet.Proofs.Balance
import Flatsheet.Proofs.Canonical

/-!
Root selectors. A sheet with a root selector is meant to be the block of that selector. Reading the
block gives the items of the sheet, as long as its braces are balanced, and the two differ in one
point only: the heading of a block is a list of selectors, while the root selector is one selector
even where it has commas.
-/

namespace Flatsheet

namespace Token

open Text (Blank)

variable {before after rest : Text} {c : Char} {token : Token}

theorem statement?_blanks (leading : Blank before) (piece : Text) (trailing : Blank after) :
    statement? (before ++ (piece ++ after)) = statement? piece := by
  rw [statement?, Text.trim_pad leading trailing, statement?]

theorem scanFrom_blank (leading : Blank before) (piece text : Text) :
    scanFrom (before ++ piece) text = scanFrom piece text := by
  have padded (piece : Text) : statement? (before ++ piece) = statement? piece := by
    simpa using statement?_blanks leading piece .nil
  induction text generalizing piece with
  | nil => rw [scanFrom, scanFrom, padded]
  | cons c text ih =>
      cases delimits : delimiter? c with
      | some token => simp only [scanFrom, delimits, padded]
      | none => simp only [scanFrom, delimits, List.append_assoc, ih]

theorem scanFrom_delimiter (trailing : Blank after) (delimits : delimiter? c = some token)
    (piece text : Text) :
    scanFrom piece (text ++ (after ++ c :: rest)) = scanFrom piece text ++ token :: scan rest := by
  induction text generalizing piece with
  | nil =>
      have padded : statement? (piece ++ after) = statement? piece := by
        simpa using statement?_blanks .nil piece trailing
      rw [List.nil_append, scanFrom_undelimited (.of_blank trailing)]
      simp only [scanFrom, delimits, padded, scan]
  | cons d text ih =>
      rw [List.cons_append]
      cases inner : delimiter? d with
      | some other => simp only [scanFrom, inner, ih, List.append_assoc, List.cons_append]
      | none => simp only [scanFrom, inner, ih]

/-- The tokens of a block: those of its body between braces, after its heading. -/
theorem scan_block {heading : Text} (proper : IsStatement heading) (text : Text) :
    scan (heading ++ " \x7b ".toList ++ text ++ " \x7d".toList) =
      .statement heading :: .opening :: (scan text ++ [.closing]) := by
  have written : heading ++ " \x7b ".toList ++ text ++ " \x7d".toList =
      [] ++ (heading ++ ([' '] ++ '{' :: ([' '] ++ (text ++ ([' '] ++ ['}']))))) := by simp
  rw [written, scan_statement .nil proper .space delimiter?_opening, scan,
    scanFrom_undelimited (.of_blank .space), List.nil_append]
  have body := scanFrom_blank .space [] (text ++ ([' '] ++ ['}']))
  rw [List.append_nil] at body
  rw [body, scanFrom_delimiter .space delimiter?_closing]
  rfl

theorem unclosed?_statement? (piece : Text) (depth : Nat) :
    unclosed? opening closing depth (statement? piece).toList = some depth := by
  unfold statement?
  split
  · rfl
  · exact unclosed?_other (by simp) (by simp) depth []

/-- Tokens open and close as many blocks as their text opens and closes braces. -/
theorem unclosed?_scanFrom (piece text : Text) (depth : Nat) :
    unclosed? opening closing depth (scanFrom piece text) = unclosed? '{' '}' depth text := by
  induction text generalizing piece depth with
  | nil => exact unclosed?_statement? piece depth
  | cons c text ih =>
      cases delimits : delimiter? c with
      | none =>
          obtain ⟨_, unopened, unclosed⟩ := delimiter?_eq_none.mp delimits
          rw [scanFrom, delimits, unclosed?_other unopened unclosed]
          exact ih _ depth
      | some token =>
          have cut : scanFrom piece (c :: text) =
              (statement? piece).toList ++ token :: scanFrom [] text := by
            rw [scanFrom, delimits]
          rw [cut, unclosed?_append, unclosed?_statement?, Option.bind_some]
          unfold delimiter? at delimits
          split_ifs at delimits with ends opens closes
          · obtain rfl : semicolon = token := Option.some.inj delimits
            rw [ends, unclosed?_other (by simp) (by simp), unclosed?_other (by decide) (by decide)]
            exact ih [] depth
          · obtain rfl : opening = token := Option.some.inj delimits
            rw [opens, unclosed?_opener, unclosed?_opener]
            exact ih [] (depth + 1)
          · obtain rfl : closing = token := Option.some.inj delimits
            rw [closes]
            cases depth with
            | zero =>
                rw [unclosed?_closer_zero (by simp), unclosed?_closer_zero Text.braces_differ]
            | succ depth =>
                rw [unclosed?_closer (by simp), unclosed?_closer Text.braces_differ]
                exact ih [] depth

theorem brace_of_opening_mem {piece text : Text} (member : opening ∈ scanFrom piece text) :
    '{' ∈ text := by
  have stated (piece : Text) : opening ∉ (statement? piece).toList := by
    unfold statement?
    split <;> simp
  induction text generalizing piece with
  | nil => exact absurd member (stated piece)
  | cons c text ih =>
      rw [scanFrom] at member
      split at member
      next token delimits =>
          rcases List.mem_append.mp member with early | later
          · exact absurd early (stated piece)
          · rcases List.mem_cons.mp later with rfl | later
            · unfold delimiter? at delimits
              split_ifs at delimits with _ opens
              · cases delimits
              · simp [opens]
              · cases delimits
            · exact List.mem_cons_of_mem c (ih later)
      next => exact List.mem_cons_of_mem c (ih member)

end Token

namespace Item

/-- Tokens that close what they open are read inside a block as they are alone, and the next closer
ends the block. -/
theorem readFrom_balanced {inner : List Frame} {items : List Item} {tokens : List Token}
    (balanced : unclosed? Token.opening Token.closing inner.length tokens = some 0)
    (heading : Option Text) (held : List Item) (outer : List Frame) (rest : List Token) :
    readFrom (inner ++ (heading, held) :: outer) items (tokens ++ .closing :: rest) =
      readFrom outer (held ++ [.block heading (readFrom inner items tokens).1]) rest := by
  have differ : Token.opening ≠ Token.closing := by simp
  fun_induction readFrom inner items tokens with
  | case1 inner items =>
      obtain rfl : inner = [] := List.length_eq_zero_iff.mp (Option.some.inj balanced)
      rfl
  | case2 items tokens =>
      rw [List.length_nil, unclosed?_closer_zero differ] at balanced
      cases balanced
  | case3 first before frames items tokens ih =>
      rw [List.length_cons, unclosed?_closer differ] at balanced
      exact ih balanced
  | case4 frames items tokens ih =>
      rw [unclosed?_other (by simp) (by simp)] at balanced
      simpa [readFrom] using ih balanced
  | case5 frames items tokens ih =>
      rw [unclosed?_opener] at balanced
      simpa [readFrom] using ih balanced
  | case6 frames items text tokens ih =>
      rw [unclosed?_other (by simp) (by simp), unclosed?_opener] at balanced
      simpa [readFrom] using ih balanced
  | case7 frames items text tokens unopened ih =>
      rw [unclosed?_other (by simp) (by simp)] at balanced
      have plain : ∀ more, tokens ++ .closing :: rest ≠ .opening :: more := by
        intro more opens
        cases tokens with
        | nil => cases opens
        | cons token tokens =>
            obtain ⟨rfl, _⟩ := List.cons.inj opens
            exact unopened tokens rfl
      rw [List.cons_append, readFrom]
      · exact ih balanced
      · exact plain

/-- A balanced text between braces is read as one block, which holds what the text holds. -/
theorem read_scan_block {heading text : Text} (proper : Token.IsStatement heading)
    (balanced : text.Balanced) :
    read (Token.scan (heading ++ " \x7b ".toList ++ text ++ " \x7d".toList)) =
      ([.block (some heading) (read (Token.scan text)).1], []) := by
  have closes : unclosed? Token.opening Token.closing 0 (Token.scan text) = some 0 := by
    rw [Token.scan, Token.unclosed?_scanFrom]
    exact Text.balanced_iff.mp balanced
  rw [Token.scan_block proper, read, readFrom]
  exact @readFrom_balanced [] [] _ closes (some heading) [] [] []

end Item

theorem Text.splitTopLevel_of_uncut {text : Text} (uncut : Uncut 0 text) (nonempty : text ≠ [])
    (collapsed : text.collapse = text) : text.splitTopLevel = [text] := by
  rw [splitTopLevel, splitTopLevelAt, splitOutside_of_uncut uncut]
  simp [collapsed, nonempty]

namespace Css

theorem lines_explicit (root : Rule) (rules : List Rule) :
    lines false (root :: rules) = writtenLines (root :: rules) := by
  cases written : isWritten root with
  | true => simp [lines, writtenLines, written]
  | false => simp [lines, writtenLines, written]

/-- The CSS of a block is that of a rule with its selectors and with what it holds. -/
theorem ofTokens_block {heading text : Text} (proper : Token.IsStatement heading)
    (balanced : text.Balanced) :
    ofTokens none (Token.scan (heading ++ " \x7b ".toList ++ text ++ " \x7d".toList)) =
      render false (Rule.ofItems (Rule.selectorsWithin [⟨[], []⟩] (some heading))
        (Item.read (Token.scan text)).1).flatten := by
  have flattened := Rule.flatten_ofTokens none
    (Token.scan (heading ++ " \x7b ".toList ++ text ++ " \x7d".toList))
  rw [Item.read_scan_block proper balanced, Rule.ofBlocks_block, Rule.flattenAll_cons] at flattened
  rw [ofTokens, render, render, flattened, Rule.flatten_ofItems, lines_explicit]
  refine congrArg ofLines ((lines_implicit (by simp) _).trans ?_)
  change [] ++ writtenLines (_ :: (_ ++ [])) = _
  rw [List.nil_append, List.append_nil]
  rfl

theorem flattenAll_of_not_mem {text : Text} (flat : '{' ∉ text) (selectors : List Selector) :
    Rule.flattenAll (Rule.ofBlocks selectors (Item.read (Token.scan text)).1) = [] := by
  obtain ⟨split, started⟩ := Item.read_entries (Token.scan text)
  have unopened : Token.opening ∉ Item.consumedFrom 0 (Token.scan text) := by
    intro member
    have scanned : Token.opening ∈ Token.scan text := by
      rw [← split]
      exact List.mem_append_left _ member
    exact flat (Token.brace_of_opening_mem scanned)
  refine List.length_eq_zero_iff.mp ?_
  rw [Rule.length_flattenAll_ofBlocks, started, Rule.countP_isBlock_ofTokens]
  exact List.count_eq_zero.mpr unopened

/-- One selector that is written like a list of several gives the same rule. -/
theorem writtenLines_list {fragments : List Text} (declarations : List Text)
    (nonempty : Text.join ", " (distinct fragments) ≠ []) (named : ∀ text ∈ fragments, text ≠ []) :
    writtenLines [⟨[⟨Text.join ", " (distinct fragments), []⟩], declarations, []⟩] =
      writtenLines [⟨fragments.map fun text => ⟨text, []⟩, declarations, []⟩] := by
  have listed : distinct fragments ≠ [] := by
    intro none
    rw [none] at nonempty
    exact nonempty rfl
  have several : fragments ≠ [] := by
    rintro rfl
    exact listed rfl
  by_cases declared : declarations = []
  · rw [declared, writtenLines_cons_undeclared, writtenLines_cons_undeclared]
  · rw [writtenLines_singleton (by simp) declared, writtenLines_singleton (by simpa) declared,
      ruleLines_distinct [] several named]
    have alone := @ruleLines_distinct [Text.join ", " (distinct fragments)] declarations []
      (by simp) (by simpa using nonempty)
    refine alone.trans ?_
    rw [distinct_constant (by simp)]
    simp [line, listed]

/-- What a block at the root means for its selectors. If they are one selector, the sheet with that
root selector means the same; and so it does if they are several different ones and the sheet holds
declarations only. -/
theorem ofTokens_rootSelector {root text : Text} (balanced : text.Balanced) (nonempty : root ≠ [])
    (collapsed : root.collapse = root) (undelimited : Token.Undelimited root)
    (unnested : '&' ∉ root)
    (unlimited : ∀ fragment ∈ root.splitTopLevel, Selector.isMediaQuery fragment = false) :
    let block := root ++ " \x7b ".toList ++ text ++ " \x7d".toList
    ofTokens none (Token.scan block) =
        render false (Rule.ofItems (root.splitTopLevel.map fun fragment => ⟨fragment, []⟩)
          (Item.read (Token.scan text)).1).flatten ∧
      (Text.Uncut 0 root →
        ofTokens (some root) (Token.scan text) = ofTokens none (Token.scan block)) ∧
      (root = Text.join ", " (distinct root.splitTopLevel) → '{' ∉ text →
        ofTokens (some root) (Token.scan text) = ofTokens none (Token.scan block)) := by
  intro block
  have trimmed : Text.Trimmed root := collapsed ▸ Text.trimmed_collapse root
  have plain : ∀ fragment ∈ root.splitTopLevel,
      '&' ∉ fragment ∧ Selector.isMediaQuery fragment = false := by
    refine fun fragment listed => ⟨fun member => ?_, unlimited fragment listed⟩
    rcases Text.mem_of_mem_splitTopLevel listed member with space | ⟨inside, _⟩
    · cases space
    · exact unnested inside
  have written : ofTokens none (Token.scan block) =
      render false (Rule.ofItems (root.splitTopLevel.map fun fragment => ⟨fragment, []⟩)
        (Item.read (Token.scan text)).1).flatten := by
    rw [ofTokens_block ⟨nonempty, trimmed.trim_eq, undelimited⟩ balanced,
      selectorsWithin_fragments [] plain]
  have given : ofTokens (some root) (Token.scan text) =
      render false (Rule.ofItems [⟨root, []⟩] (Item.read (Token.scan text)).1).flatten := by
    rw [ofTokens]
    simp [nonempty, Rule.ofTokens, Rule.rootSelector]
  refine ⟨written, fun uncut => ?_, fun listed flat => ?_⟩
  · rw [given, written, Text.splitTopLevel_of_uncut uncut nonempty collapsed]
    rfl
  · rw [given, written, render, render, Rule.flatten_ofItems, Rule.flatten_ofItems,
      flattenAll_of_not_mem flat, flattenAll_of_not_mem flat, lines_explicit, lines_explicit]
    have named : ∀ fragment ∈ root.splitTopLevel, fragment ≠ [] := fun fragment member =>
      by simpa using (List.mem_filter.mp member).2
    have same := writtenLines_list (Rule.ownDeclarations (Item.read (Token.scan text)).1)
      (listed ▸ nonempty) named
    rw [← listed] at same
    exact congrArg ofLines same

/-- A selector with a comma between brackets around a nested block, and a list of selectors around a
declaration. -/
theorem ofTokens_rootSelector_unsplit :
    ofTokens (some "a:is(b, c)") (Token.scan "x: y; d \x7b z: w; \x7d") =
        ofTokens none (Token.scan "a:is(b, c) \x7b x: y; d \x7b z: w; \x7d \x7d") ∧
      ofTokens (some "a, b") (Token.scan "x: y;") =
        ofTokens none (Token.scan "a, b \x7b x: y; \x7d") := by
  have nested := (@ofTokens_rootSelector "a:is(b, c)" "x: y; d \x7b z: w; \x7d" (by decide)
    (by decide) (by decide) (by decide) (by decide) (by decide +kernel)).2.1 (by decide)
  have listed := (@ofTokens_rootSelector "a, b" "x: y;" (by decide) (by decide) (by decide)
    (by decide) (by decide) (by decide +kernel)).2.2 (by decide) (by decide)
  exact ⟨nested, listed⟩

/-- A root selector that lists several selectors is nested as a whole, and written as given. -/
theorem ofTokens_rootSelector_list :
    (∀ root ∈ (["a, b", "a,b"] : List Text), root ≠ [] ∧ root.collapse = root ∧
      Token.Undelimited root ∧ '&' ∉ root ∧
      ∀ fragment ∈ root.splitTopLevel, Selector.isMediaQuery fragment = false) ∧
    Text.Balanced "c \x7b x: y; \x7d" ∧ Text.Balanced "x: y;" ∧
    ofTokens (some "a, b") (Token.scan "c \x7b x: y; \x7d") = "a, b c \x7b x: y; \x7d\n" ∧
    ofTokens none (Token.scan "a, b \x7b c \x7b x: y; \x7d \x7d") = "a c, b c \x7b x: y; \x7d\n" ∧
    ofTokens (some "a,b") (Token.scan "x: y;") = "a,b \x7b x: y; \x7d\n" ∧
    ofTokens none (Token.scan "a,b \x7b x: y; \x7d") = "a, b \x7b x: y; \x7d\n" := by
  decide +kernel

end Css

end Flatsheet
