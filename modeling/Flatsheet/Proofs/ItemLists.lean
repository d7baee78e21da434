import Flatsheet.Proofs.Headings
import Flatsheet.Proofs.Separators

/-!
Lists of arguments and of parameters, read from their written form. Items are kept apart by blanks
and commas, of which at least one is a comma or a line feed, and nothing but blanks and commas
stands before the first item and after the last. Splitting finds these items in every text, and no
others. So a list that was stored in a variable is spread again into the arguments it was made of,
and parameters are read back with their defaults.
-/

namespace Flatsheet

namespace Text

/-- What an entry of a list can be. -/
structure ListItem (text : Text) : Prop where
  nonempty : text ≠ []
  comma : ',' ∉ text
  line : '\n' ∉ text
  trimmed : Trimmed text

instance (text : Text) : Decidable (ListItem text) :=
  decidable_of_iff (text ≠ [] ∧ ',' ∉ text ∧ '\n' ∉ text ∧ text.trim = text)
    ⟨fun ⟨nonempty, comma, line, trim⟩ => ⟨nonempty, comma, line, trimmed_iff.mpr trim⟩,
      fun ⟨nonempty, comma, line, trimmed⟩ => ⟨nonempty, comma, line, trimmed.trim_eq⟩⟩

/-- The items one after another, with some separator between any two. -/
inductive Joined : List Text → Text → Prop where
  | nil : Joined [] []
  | single (item : Text) : Joined [item] item
  | cons (item : Text) {separator next text : Text} {items : List Text}
      (separates : ListSeparator separator) (later : Joined (next :: items) text) :
      Joined (item :: next :: items) (item ++ (separator ++ text))

/-- The text is these items, joined, with blanks and commas around them. -/
def Lists (text : Text) (items : List Text) : Prop :=
  ∃ before written after, Filler before ∧ Joined items written ∧ Filler after ∧
    text = before ++ (written ++ after)

theorem ListSeparator.append {separator filler : Text} (separates : ListSeparator separator)
    (fills : Filler filler) : ListSeparator (separator ++ filler) := by
  refine ⟨separates.filler.append fills, ?_⟩
  exact separates.cuts.imp (List.mem_append_left _) (List.mem_append_left _)

theorem Lists.pad {filler text : Text} {items : List Text} (fills : Filler filler)
    (lists : text.Lists items) : (filler ++ text).Lists items := by
  obtain ⟨before, written, after, leading, joined, trailing, rfl⟩ := lists
  exact ⟨filler ++ before, written, after, fills.append leading, joined, trailing, by simp⟩

theorem Lists.cons {separator text : Text} {items : List Text} (item : Text)
    (separates : ListSeparator separator) (lists : text.Lists items) :
    (item ++ (separator ++ text)).Lists (item :: items) := by
  obtain ⟨before, written, after, leading, joined, trailing, rfl⟩ := lists
  cases items with
  | nil =>
      cases joined
      refine ⟨[], item, separator ++ (before ++ after), .nil, .single item, ?_, by simp⟩
      exact separates.filler.append (leading.append trailing)
  | cons next items =>
      refine ⟨[], item ++ (separator ++ before ++ written), after, .nil, ?_, trailing, by simp⟩
      exact .cons item (separates.append leading) joined

theorem joined_join (items : List Text) : Joined items (join ", " items) := by
  induction items with
  | nil => exact .nil
  | cons item items ih =>
      cases items with
      | nil =>
          rw [join_singleton]
          exact .single item
      | cons next items =>
          rw [join_cons_cons]
          exact .cons item (by decide) ih

theorem cutItems_item_blank {item filler : Text} (listed : ListItem item) (fills : Filler filler)
    (uncut : ∀ c ∈ filler, isListSeparator c = false) : cutItems (item ++ filler) = [item] := by
  have trimmed : (item ++ filler).trim = item :=
    (trim_pad .nil (fills.blank uncut)).trans listed.trimmed.trim_eq
  rw [cutItems_of_uncut, trimmed, if_neg listed.nonempty]
  intro c member
  have own := unseparated_iff.mpr ⟨listed.comma, listed.line⟩
  exact (List.mem_append.mp member).elim (own c) (uncut c)

/-- An item ends where the separator after it begins, although both may hold blanks. -/
theorem cutItems_item_append {item filler rest : Text} (listed : ListItem item)
    (fills : Filler filler) (ended : ',' ∈ filler ∨ '\n' ∈ filler ∨ rest = []) :
    cutItems (item ++ (filler ++ rest)) = item :: cutItems rest := by
  rcases cut_cases filler with uncut | ⟨blanks, c, more, rfl, uncut, cuts⟩
  · obtain ⟨comma, line⟩ := unseparated_iff.mp uncut
    have last : rest = [] := (ended.resolve_left comma).resolve_left line
    rw [last, List.append_nil, cutItems_item_blank listed fills uncut]
    rfl
  · have around : Filler blanks ∧ Filler more :=
      ⟨fun d member => fills d (by simp [member]), fun d member => fills d (by simp [member])⟩
    rw [List.append_assoc, List.cons_append, ← List.append_assoc, cutItems_append_cut cuts,
      cutItems_item_blank listed around.1 uncut, cutItems_filler_append around.2]
    rfl

theorem Joined.cutItems_append {items : List Text} {written after : Text}
    (joined : Joined items written) (listed : ∀ item ∈ items, ListItem item)
    (trailing : Filler after) : cutItems (written ++ after) = items := by
  induction joined with
  | nil => exact cutItems_filler trailing
  | single item =>
      have last := cutItems_item_append (listed item (by simp)) trailing (.inr (.inr rfl))
      rwa [List.append_nil] at last
  | cons item separates later ih =>
      obtain ⟨first, others⟩ := List.forall_mem_cons.mp listed
      rw [List.append_assoc, List.append_assoc, cutItems_item_append first separates.filler,
        ih others]
      exact separates.cuts.imp_right .inl

theorem Joined.splitList_eq {items : List Text} {written : Text} (joined : Joined items written)
    (listed : ∀ item ∈ items, ListItem item) : splitList written = items := by
  have read := joined.cutItems_append listed .nil
  rwa [List.append_nil, ← Text.splitList_eq] at read

theorem listItem_of_mem_splitList {text item : Text} (member : item ∈ splitList text) :
    ListItem item := by
  rw [splitList_eq] at member
  obtain ⟨listed, nonempty⟩ := List.mem_filter.mp member
  obtain ⟨part, inside, rfl⟩ := List.mem_map.mp listed
  have uncut : ∀ c ∈ part.trim, isListSeparator c = false := by
    intro c kept
    have whole : c ∈ (splitWhere isListSeparator text).flatten :=
      List.mem_flatten.mpr ⟨part, inside, mem_of_mem_trim kept⟩
    rw [flatten_splitWhere] at whole
    simpa using (List.mem_filter.mp whole).2
  obtain ⟨comma, line⟩ := unseparated_iff.mp uncut
  exact ⟨by simpa using nonempty, comma, line, trimmed_trim part⟩

theorem lists_piece (piece : Text) :
    piece.Lists (if piece.trim = [] then [] else [piece.trim]) := by
  obtain ⟨before, after, leading, trailing, split⟩ := trim_split piece
  split
  next empty =>
      rw [empty, List.nil_append] at split
      exact ⟨before, [], after, .of_blank leading, .nil, .of_blank trailing, by simpa using split⟩
  next =>
      exact ⟨before, piece.trim, after, .of_blank leading, .single _, .of_blank trailing, split⟩

theorem Lists.piece_append {c : Char} {rest : Text} {items : List Text} (piece : Text)
    (cuts : isListSeparator c = true) (lists : rest.Lists items) :
    (piece ++ c :: rest).Lists ((if piece.trim = [] then [] else [piece.trim]) ++ items) := by
  have mark : ListSeparator [c] := by
    rcases isListSeparator_iff.mp cuts with rfl | rfl <;> decide
  obtain ⟨before, after, leading, trailing, split⟩ := trim_split piece
  have shape : piece ++ c :: rest = before ++ (piece.trim ++ (after ++ [c] ++ rest)) := by
    conv_lhs => rw [split]
    simp
  have separates : ListSeparator (after ++ [c]) := by
    refine ⟨Filler.append (.of_blank trailing) mark.filler, ?_⟩
    exact mark.cuts.imp (List.mem_append_right _) (List.mem_append_right _)
  rw [shape]
  apply Lists.pad (.of_blank leading)
  split
  next empty =>
      rw [empty, List.nil_append, List.nil_append]
      exact lists.pad separates.filler
  next => exact lists.cons piece.trim separates

/-- Every text is a list of the items that it is cut into: what stands before a place to cut is one
item or none. -/
theorem lists_cutItems (text : Text) : text.Lists (cutItems text) := by
  induction text using parts_induction with
  | whole text uncut =>
      rw [cutItems_of_uncut uncut]
      exact lists_piece text
  | cut front c rest uncut cuts ih =>
      rw [cutItems_append_cut cuts, cutItems_of_uncut uncut]
      exact ih.piece_append front cuts

theorem lists_splitList (text : Text) : text.Lists (splitList text) :=
  splitList_eq text ▸ lists_cutItems text

theorem splitList_eq_iff {text : Text} {items : List Text} :
    splitList text = items ↔ (∀ item ∈ items, ListItem item) ∧ text.Lists items := by
  constructor
  · intro same
    rw [← same]
    exact ⟨fun _ => listItem_of_mem_splitList, lists_splitList text⟩
  · intro written
    obtain ⟨listed, before, middle, after, leading, joined, trailing, rfl⟩ := written
    rw [splitList_eq, cutItems_filler_append leading, joined.cutItems_append listed trailing]

theorem splitList_join {items : List Text} (listed : ∀ item ∈ items, ListItem item) :
    splitList (join ", " items) = items := (joined_join items).splitList_eq listed

theorem ListItem.of_word {word : Text} (isWord : Word word) (comma : ',' ∉ word) :
    ListItem word := by
  refine ⟨isWord.1, comma, fun line => ?_, isWord.trimmed⟩
  exact absurd (isWord.2 '\n' line) (by decide)

theorem ListItem.join {separator first : Text} {parts : List Text}
    (listed : ∀ part ∈ first :: parts, ListItem part) (comma : ',' ∉ separator)
    (line : '\n' ∉ separator) : ListItem (Text.join separator (first :: parts)) := by
  have absent {mark : Char} (between : mark ∉ separator)
      (inside : ∀ part ∈ first :: parts, mark ∉ part) :
      mark ∉ Text.join separator (first :: parts) := by
    intro member
    rcases mem_join member with found | ⟨part, partListed, found⟩
    · exact between found
    · exact inside part partListed found
  refine ⟨join_ne_nil (listed first (by simp)).nonempty, ?_, ?_, ?_⟩
  · exact absent comma fun part member => (listed part member).comma
  · exact absent line fun part member => (listed part member).line
  · exact .join fun part member => ⟨(listed part member).nonempty, (listed part member).trimmed⟩

end Text

theorem Mixin.Name.word {name : Text} (named : Mixin.Name name) : Text.Word name := by
  refine ⟨named.1, fun c member => Bool.eq_false_iff.mpr fun blank => ?_⟩
  exact absurd (named.2 c member) (by simp [not_isName_of_isBlank blank])

namespace Include

open Text

theorem listItem_reference {name : Text} (named : Mixin.Name name) :
    ListItem ('$' :: (name ++ Parameter.spreadMark)) := by
  have dots : Word Parameter.spreadMark := by decide
  refine .of_word ⟨by simp, fun c member => ?_⟩ ?_
  · rcases List.mem_cons.mp member with rfl | member
    · decide
    · exact (List.mem_append.mp member).elim (named.word.2 c) (dots.2 c)
  · have inside : ',' ∉ name := named.not_mem (by decide +kernel)
    have mark : ',' ∉ Parameter.spreadMark := by decide
    simp [inside, mark]

theorem spread_reference {name : Text} (named : Mixin.Name name) (globals : Table Text) :
    spread globals ('$' :: (name ++ Parameter.spreadMark)) =
      splitList ((globals.get? name).getD []) := by
  have spreads : endsWith ('$' :: (name ++ Parameter.spreadMark)) Parameter.spreadMark = true :=
    endsWith_iff.mpr ⟨'$' :: name, rfl⟩
  have reference : ('$' :: (name ++ Parameter.spreadMark)).take
      (('$' :: (name ++ Parameter.spreadMark)).length - Parameter.spreadMark.length) =
        '$' :: name := by
    rw [← List.cons_append, List.length_append, Nat.add_sub_cancel, List.take_left]
  have bare : ('$' :: name).dropWhile (· = '$') = name := by
    obtain ⟨c, rest, rfl⟩ := List.exists_cons_of_ne_nil named.1
    have other : c ≠ '$' := by
      intro same
      exact named.not_mem (by decide +kernel : isName '$' = false) (by simp [same])
    simp [other]
  rw [spread, if_pos spreads]
  simp only [reference, bare]

/-- Lists split exactly. Every text is a list of the items that it is split into, each of them an
item that could be written alone, and it is split into them whatever stands between them. In
particular a list that is stored in a variable is spread into the same arguments again. -/
theorem argumentsOf_splices_back :
    (∀ text, (∀ item ∈ splitList text, ListItem item) ∧ text.Lists (splitList text)) ∧
    ∀ items, (∀ item ∈ items, ListItem item) →
      (∀ text, text.Lists items → splitList text = items) ∧
      splitList (join ", " items) = items ∧
      ∀ (globals : Table Text) (name : Text), Mixin.Name name →
        globals.get? name = some (join ", " items) →
        argumentsOf globals (some ('$' :: (name ++ Parameter.spreadMark))) = items := by
  refine ⟨fun text => ⟨fun _ => listItem_of_mem_splitList, lists_splitList text⟩, ?_⟩
  intro items listed
  refine ⟨fun text lists => splitList_eq_iff.mpr ⟨listed, lists⟩, splitList_join listed, ?_⟩
  intro globals name named stored
  have reference := (Joined.single _).splitList_eq
    (List.forall_mem_singleton.mpr (listItem_reference named))
  rw [argumentsOf, Option.getD_some, reference, List.flatMap_singleton, spread_reference named,
    stored, Option.getD_some, splitList_join listed]

/-- The items hold blanks, a colon and a zero-width space, which is no blank. -/
theorem argumentsOf_splices_back_stored :
    let items := ["1px  solid".toList, "a: b".toList, "\u200b".toList]
    let globals := Table.ofList [("x".toList, "y".toList), ("my-list".toList, join ", " items)]
    ((∀ item ∈ items, ListItem item) ∧ Mixin.Name "my-list" ∧
        globals.get? "my-list" = some (join ", " items)) ∧
      splitList "\u3000,1px  solid\n ,a: b\n\u200b\t".toList = items ∧
      argumentsOf globals (some "$my-list...".toList) = items := by
  intro items globals
  have listed : ∀ item ∈ items, ListItem item := by decide
  have stored : globals.get? "my-list" = some (join ", " items) := by decide
  have named : Mixin.Name "my-list" := by decide +kernel
  have joined : Joined items ("1px  solid".toList ++ ("\n ,".toList ++
      ("a: b".toList ++ ("\n".toList ++ "\u200b".toList)))) :=
    .cons _ (by decide) (.cons _ (by decide) (.single _))
  have written : Lists "\u3000,1px  solid\n ,a: b\n\u200b\t".toList items :=
    ⟨"\u3000,".toList, _, "\t".toList, by decide, joined, by decide, by decide⟩
  obtain ⟨split, _, spread⟩ := argumentsOf_splices_back.2 items listed
  exact ⟨⟨listed, named, stored⟩, split _ written, spread globals _ named stored⟩

end Include

namespace Parameter

open Text

/-- The name, with the default after a colon if there is one. -/
def written (parameter : Parameter) : Text :=
  join ": " (parameter.name :: parameter.default.toList)

/-- What a parameter can be that is read from a list. -/
structure Writable (parameter : Parameter) : Prop where
  name : ListItem parameter.name
  label : ':' ∉ parameter.name
  default : ∀ value ∈ parameter.default, ListItem value

theorem Writable.listItem_written {parameter : Parameter} (writable : parameter.Writable) :
    ListItem parameter.written := by
  refine .join ?_ (by decide) (by decide)
  intro part member
  rcases List.mem_cons.mp member with rfl | given
  · exact writable.name
  · exact writable.default part (Option.mem_toList.mp given)

theorem Writable.ofText_written {parameter : Parameter} (writable : parameter.Writable) :
    ofText parameter.written = parameter := by
  obtain ⟨name, default⟩ := parameter
  have trimmed : name.trim = name := writable.name.trimmed.trim_eq
  cases default with
  | none =>
      have shape : written ⟨name, none⟩ = name := join_singleton _ name
      rw [shape, ofText, partition_of_not_mem writable.label]
      simp only [trimmed]
  | some value =>
      have item : ListItem value := writable.default value rfl
      have shape : written ⟨name, some value⟩ = name ++ ':' :: ' ' :: value :=
        (join_cons_cons _ name value []).trans (by rw [join_singleton]; rfl)
      rw [shape, ofText, partition_append_mark writable.label]
      simp only [trimmed, trim_cons_blank isBlank_space, item.trimmed.trim_eq, if_neg item.nonempty]

/-- Parameters are read back from any list in which they are written. Only the first colon of an
entry ends a name, so a default may hold colons. -/
theorem listOfText_joined {parameters : List Parameter} {text : Text}
    (writable : ∀ parameter ∈ parameters, parameter.Writable)
    (joined : Joined (parameters.map written) text) : listOfText text = parameters := by
  have listed : ∀ item ∈ parameters.map written, ListItem item := by
    intro item member
    obtain ⟨parameter, given, rfl⟩ := List.mem_map.mp member
    exact (writable parameter given).listItem_written
  have read : ∀ parameter ∈ parameters, ofText parameter.written = parameter :=
    fun parameter given => (writable parameter given).ofText_written
  rw [listOfText, joined.splitList_eq listed, List.map_map]
  exact (List.map_congr_left read).trans (List.map_id _)

theorem listOfText_joined_defaults :
    let parameters : List Parameter := [⟨"$a".toList, none⟩,
      ⟨"$b c".toList, some "url(d:e) f".toList⟩, ⟨"$rest...".toList, none⟩]
    let text := "$a \n,\t, $b c: url(d:e) f\u3000\n$rest...".toList
    ((∀ parameter ∈ parameters, parameter.Writable) ∧ Joined (parameters.map written) text) ∧
      listOfText text = parameters := by
  intro parameters text
  have writable : ∀ parameter ∈ parameters, parameter.Writable := by
    simp only [parameters, List.forall_mem_cons]
    exact ⟨⟨by decide, by decide, by simp⟩, ⟨by decide, by decide, by decide⟩,
      ⟨by decide, by decide, by simp⟩, by simp⟩
  have entries : parameters.map written =
      ["$a".toList, "$b c: url(d:e) f".toList, "$rest...".toList] := by decide
  have spelled : text = "$a".toList ++ (" \n,\t, ".toList ++
      ("$b c: url(d:e) f".toList ++ ("\u3000\n".toList ++ "$rest...".toList))) := by decide
  have joined : Joined (parameters.map written) text := by
    rw [entries, spelled]
    exact .cons _ (by decide) (.cons _ (by decide) (.single _))
  exact ⟨⟨writable, joined⟩, listOfText_joined writable joined⟩

end Parameter

end Flatsheet
