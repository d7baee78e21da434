import Flatsheet.Proofs.Headings
import Flatsheet.Proofs.IntactPasses

/-!
Flattening of nested properties. The name of a group goes in front of the labels inside it, and a
label is known by its look alone: a name and a colon. So the values are kept exactly if nothing in
them looks like a label. One that holds `data:` or `http:` gets the name of the group in its middle.
-/

namespace Flatsheet

open Text (Blank)

namespace Mixin.Name

variable {name label : Text}

theorem nested (named : Name name) (labelled : Name label) : Name (name ++ '-' :: label) := by
  refine ⟨by simp, fun c member => ?_⟩
  rcases List.mem_append.mp member with inside | inside
  · exact named.2 c inside
  · rcases List.mem_cons.mp inside with rfl | inside
    · decide +kernel
    · exact labelled.2 c inside

end Mixin.Name

namespace Declaration

open Pattern
open Mixin (Name)

theorem label?_of_not_isName {c : Char} (other : isName c = false) (text : Text) :
    label? (c :: text) = none := by
  simp [label?, Text.run?, other]

theorem not_isName_gap {gap : Text} (blank : Blank gap) (rest : Text) :
    ∀ c ∈ (gap ++ ':' :: rest).head?, isName c = false := by
  cases gap with
  | nil => exact Text.head?_cons_fails (by decide +kernel) rest
  | cons b gap => exact Text.head?_cons_fails (not_isName_of_isBlank (blank b (by simp))) _

theorem label?_written {name gap : Text} (named : Name name) (blank : Blank gap) (rest : Text) :
    label? (name ++ (gap ++ ':' :: rest)) = some (name, rest) := by
  have run : Text.run? isName (name ++ (gap ++ ':' :: rest)) = some (name, gap ++ ':' :: rest) :=
    Text.run?_eq_some.mpr ⟨rfl, named.1, named.2, not_isName_gap blank rest⟩
  have trimmed : (gap ++ ':' :: rest).trimLeft = ':' :: rest := by
    rw [Text.trimLeft_append blank]
    rfl
  simp only [label?, run, Option.bind_eq_bind, Option.bind_some, trimmed]
  rfl

theorem name_of_label? {text name rest : Text} (found : label? text = some (name, rest)) :
    ∃ gap, Name name ∧ Blank gap ∧ text = name ++ (gap ++ ':' :: rest) := by
  obtain ⟨gap, inside, blank, rfl⟩ := label?_eq_some found
  refine ⟨gap, ⟨?_, inside⟩, blank, List.append_assoc ..⟩
  rintro rfl
  cases start : gap ++ ':' :: rest with
  | nil => simp at start
  | cons c left =>
      have other := not_isName_gap blank rest c (by simp [start])
      rw [List.nil_append, start, label?_of_not_isName other] at found
      cases found

theorem label?_haltsAt : HaltsAt label? ';' := by
  intro start rest _
  simp only [label?, Text.run?_append_mark rest (by decide +kernel : isName ';' = false)]
  rcases Text.run? isName start with _ | ⟨name, after⟩
  · rfl
  · simp only [Option.map_some, Prod.map_apply, id, Option.bind_eq_bind, Option.bind_some,
      Text.trimLeft_append_mark rest (by decide : isBlank ';' = false),
      Text.dropPrefix?_append_mark rest (by decide : ';' ∉ [':'])]
    cases Text.dropPrefix? [':'] after.trimLeft <;> rfl

/-- Something in the text looks like a label: a character of a name, and a colon after blanks. -/
def HoldsLabel (text : Text) : Prop :=
  ∃ before c gap after, text = before ++ c :: (gap ++ ':' :: after) ∧ isName c = true ∧ Blank gap

theorem holdsLabel_iff {text : Text} :
    HoldsLabel text ↔ ∃ start ∈ text.tails, (label? start).isSome = true := by
  constructor
  · rintro ⟨before, c, gap, after, rfl, named, blank⟩
    have single : Name [c] := ⟨by simp, by simpa using named⟩
    have found := label?_written single blank after
    exact ⟨_, (List.mem_tails _ _).mpr (List.suffix_append before _), by
      rw [← List.singleton_append, found]; rfl⟩
  · rintro ⟨start, suffix, found⟩
    obtain ⟨⟨name, rest⟩, found⟩ := Option.isSome_iff_exists.mp found
    obtain ⟨gap, ⟨nonempty, inside⟩, blank, rfl⟩ := name_of_label? found
    obtain ⟨before, rfl⟩ := (List.mem_tails _ _).mp suffix
    obtain ⟨name, c, rfl⟩ := List.eq_nil_or_concat name |>.resolve_left nonempty
    exact ⟨before ++ name, c, gap, rest, by simp, inside c (by simp), blank⟩

instance (text : Text) : Decidable (HoldsLabel text) :=
  decidable_of_iff _ holdsLabel_iff.symm

theorem holdsLabel_cons_of_none {c : Char} {rest : Text} (missed : label? (c :: rest) = none) :
    HoldsLabel (c :: rest) ↔ HoldsLabel rest := by
  simp [holdsLabel_iff, missed]

/-- What is written for a text that stands in the group of that name. -/
def prefixLabels (name text : Text) : Text :=
  label?.replace (fun label => name ++ '-' :: label ++ [':']) text

section

variable {name label : Text}

theorem prefixLabels_of_not_isName {c : Char} (other : isName c = false) (text : Text) :
    prefixLabels name (c :: text) = c :: prefixLabels name text :=
  replace_of_none (label?_of_not_isName other text)

theorem prefixLabels_written {gap : Text} (labelled : Name label) (blank : Blank gap)
    (rest : Text) :
    prefixLabels name (label ++ (gap ++ ':' :: rest)) =
      name ++ '-' :: label ++ ':' :: prefixLabels name rest := by
  have found := label?_written labelled blank rest
  have split : label ++ (gap ++ ':' :: rest) = label ++ gap ++ [':'] ++ rest := by simp
  rw [split] at found ⊢
  rw [prefixLabels, replace_of_some (by simp) found]
  simp [prefixLabels]

/-- A text is kept exactly if nothing in it looks like a label. -/
theorem prefixLabels_eq_self_iff (named : Name name) {text : Text} :
    prefixLabels name text = text ↔ ¬ HoldsLabel text := by
  constructor
  · refine cut_induction label?_whole.proper (motive := fun text _ =>
      prefixLabels name text = text → ¬ HoldsLabel text) ?_ ?_ ?_ text
    · intro _
      decide
    · intro c rest missed ih kept
      rw [prefixLabels, replace_of_none missed] at kept
      rw [holdsLabel_cons_of_none missed]
      exact ih (List.cons.inj kept).2
    · intro source label rest covers found _ kept
      obtain ⟨gap, labelled, blank, split⟩ := name_of_label? found
      have written := label?_written (named.nested labelled) (List.forall_mem_nil _ : Blank [])
        (prefixLabels name rest)
      rw [List.nil_append, ← prefixLabels_written labelled blank, ← split, kept, found] at written
      have sizes := congrArg (fun read => (read.map (·.1.length)).getD 0) written
      simp at sizes
      omega
  · intro plain
    refine replace_of_absent (fun start suffix => ?_) _
    cases found : label? start with
    | none => rfl
    | some read =>
        exact absurd (holdsLabel_iff.mpr
          ⟨start, (List.mem_tails _ _).mpr suffix, by simp [found]⟩) plain

theorem not_mem_prefixLabels (named : Name name) {mark : Char} {text : Text}
    (other : isName mark = false) (apart : mark ≠ ':') (absent : mark ∉ text) :
    mark ∉ prefixLabels name text := by
  refine replace_invariant label?_whole.proper (mark ∉ ·) ?_ absent
  intro written source label left found absent
  obtain ⟨gap, labelled, _, _⟩ := name_of_label? found
  have fresh := (named.nested labelled).not_mem other
  simp only [List.mem_append, List.mem_singleton, not_or] at absent fresh ⊢
  exact ⟨absent.1, ⟨fresh, apart⟩, absent.2.2⟩

end

/-- What a group holds: `label: value; `. -/
@[ext]
structure Member where
  label : Text
  value : Text
deriving DecidableEq

namespace Member

def text (member : Member) : Text :=
  member.label ++ ": ".toList ++ member.value ++ "; ".toList

/-- The member on its own, with the name of the group in front of its label. -/
def alone (name : Text) (member : Member) : Member :=
  ⟨name ++ '-' :: member.label, member.value⟩

/-- The member as it is written for the group: its value is searched for labels, too. -/
def flattened (name : Text) (member : Member) : Member :=
  ⟨name ++ '-' :: member.label, prefixLabels name member.value⟩

/-- The label is a name, and the value ends with the member and not with the group. -/
structure Plain (member : Member) : Prop where
  named : Name member.label
  unended : ';' ∉ member.value
  unclosed : '}' ∉ member.value

instance (member : Member) : Decidable member.Plain :=
  decidable_of_iff (Name member.label ∧ ';' ∉ member.value ∧ '}' ∉ member.value)
    ⟨fun ⟨named, unended, unclosed⟩ => ⟨named, unended, unclosed⟩,
      fun ⟨named, unended, unclosed⟩ => ⟨named, unended, unclosed⟩⟩

section

variable {name : Text} {member other : Member}

theorem Plain.alone (named : Name name) (plain : member.Plain) : (member.alone name).Plain :=
  ⟨named.nested plain.named, plain.unended, plain.unclosed⟩

theorem Plain.flattened (named : Name name) (plain : member.Plain) :
    (member.flattened name).Plain :=
  ⟨named.nested plain.named,
    not_mem_prefixLabels named (by decide +kernel) (by decide) plain.unended,
    not_mem_prefixLabels named (by decide +kernel) (by decide) plain.unclosed⟩

/-- A plain member is read off its text: the label up to the colon, the value up to the
semicolon. -/
theorem Plain.text_append_inj (plain : member.Plain) (plain' : other.Plain) {rest rest' : Text}
    (same : member.text ++ rest = other.text ++ rest') : member = other ∧ rest = rest' := by
  have split (member : Member) (rest : Text) : member.text ++ rest =
      member.label ++ ':' :: (' ' :: (member.value ++ ';' :: ' ' :: rest)) := by
    simp [text]
  have colon : isName ':' = false := by decide +kernel
  rw [split, split] at same
  obtain ⟨labels, same⟩ :=
    Text.append_mark_inj (plain.named.not_mem colon) (plain'.named.not_mem colon) same
  obtain ⟨values, same⟩ :=
    Text.append_mark_inj plain.unended plain'.unended (List.cons.inj same).2
  exact ⟨Member.ext labels values, (List.cons.inj same).2⟩

end

end Member

def body (members : List Member) : Text := ' ' :: members.flatMap Member.text

/-- `name: { label: value; ... label: value; }` -/
def group (name : Text) (members : List Member) : Text :=
  name ++ ": \x7b".toList ++ body members ++ ['}']

section

variable {name : Text} {member : Member} {members : List Member}

/-- One member of a group is rewritten up to its semicolon, apart from what follows. -/
theorem prefixLabels_member (named : Name member.label) (rest : Text) :
    prefixLabels name (member.text ++ rest) =
      (member.flattened name).text ++ prefixLabels name rest := by
  have split : member.text ++ rest =
      member.label ++ ([] ++ ':' :: ' ' :: (member.value ++ ';' :: ' ' :: rest)) := by
    simp [Member.text]
  have halted : prefixLabels name (member.value ++ ';' :: ' ' :: rest) =
      prefixLabels name member.value ++ prefixLabels name (';' :: ' ' :: rest) :=
    replace_append_mark label?_whole.proper label?_haltsAt _ _ _
  have blank : isName ' ' = false := by decide +kernel
  rw [split, prefixLabels_written named (List.forall_mem_nil _ : Blank []),
    prefixLabels_of_not_isName blank, halted,
    prefixLabels_of_not_isName (by decide +kernel : isName ';' = false),
    prefixLabels_of_not_isName blank]
  simp [Member.text, Member.flattened]

theorem prefixLabels_body (named : ∀ member ∈ members, Name member.label) :
    prefixLabels name (body members) = body (members.map (Member.flattened name)) := by
  rw [body, prefixLabels_of_not_isName (by decide +kernel : isName ' ' = false), body]
  congr 1
  induction members with
  | nil => rfl
  | cons member members ih =>
      rw [List.flatMap_cons, prefixLabels_member (named member (by simp)),
        ih fun member inside => named member (by simp [inside])]
      rfl

theorem not_mem_body (plain : ∀ member ∈ members, member.Plain) : '}' ∉ body members := by
  simp only [body, List.mem_cons, List.mem_flatMap, not_or, not_exists, not_and]
  refine ⟨by decide, fun member inside => ?_⟩
  have labelled := (plain member inside).named.not_mem (by decide +kernel : isName '}' = false)
  simp [Member.text, labelled, (plain member inside).unclosed]

theorem nestedProperty?_group (named : Name name) (plain : ∀ member ∈ members, member.Plain) :
    nestedProperty? (group name members) = some (⟨name, body members⟩, []) := by
  have split : group name members = name ++ ':' :: ' ' :: '{' :: (body members ++ ['}']) := by
    simp [group]
  have run : Text.run? isName (group name members) =
      some (name, ':' :: ' ' :: '{' :: (body members ++ ['}'])) :=
    Text.run?_eq_some.mpr ⟨split, named.1, named.2, Text.head?_cons_fails (by decide +kernel) _⟩
  have closed : Text.until? '}' (body members ++ ['}']) = some (body members, []) :=
    Text.until?_of_not_mem (not_mem_body plain)
  have colon (rest : Text) :
      Text.dropPrefix? [':'] (Text.trimLeft (':' :: rest)) = some rest := rfl
  have brace (rest : Text) :
      Text.dropPrefix? ['{'] (Text.trimLeft (' ' :: '{' :: rest)) = some rest := rfl
  simp only [nestedProperty?, run, colon, brace, closed, Option.bind_eq_bind, Option.bind_some]
  rfl

theorem flattenNested_group (named : Name name) (plain : ∀ member ∈ members, member.Plain) :
    flattenNested (group name members) = body (members.map (Member.flattened name)) := by
  have found := nestedProperty?_group named plain
  rw [← List.append_nil (group name members)] at found ⊢
  rw [flattenNested, replace_of_some (by simp [group]) found]
  exact (List.append_nil _).trans
    (prefixLabels_body fun member inside => (plain member inside).named)

theorem body_inj {others : List Member} (plain : ∀ member ∈ members, member.Plain)
    (plain' : ∀ member ∈ others, member.Plain) (same : body members = body others) :
    members = others := by
  have texts := (List.cons.inj same).2
  clear same
  induction members generalizing others with
  | nil =>
      cases others with
      | nil => rfl
      | cons other others => simp [Member.text] at texts
  | cons member members ih =>
      cases others with
      | nil => simp [Member.text] at texts
      | cons other others =>
          obtain ⟨first, members_plain⟩ := List.forall_mem_cons.mp plain
          obtain ⟨first', others_plain⟩ := List.forall_mem_cons.mp plain'
          rw [List.flatMap_cons, List.flatMap_cons] at texts
          obtain ⟨rfl, later⟩ := first.text_append_inj first' texts
          rw [ih members_plain others_plain later]

end

/-- A group is written as its members on their own, with the name of the group in front of the
labels, where labels are also what looks like one inside a value. So exactly the groups without
such a value come out with their values unchanged. -/
theorem flattenNested_group_iff (name : Text) (members : List Member) (named : Name name)
    (plain : ∀ member ∈ members, member.Plain) :
    flattenNested (group name members) = body (members.map (Member.flattened name)) ∧
      (flattenNested (group name members) = body (members.map (Member.alone name)) ↔
        ∀ member ∈ members, ¬ HoldsLabel member.value) := by
  refine ⟨flattenNested_group named plain, ?_⟩
  rw [flattenNested_group named plain]
  have kept (member : Member) :
      member.flattened name = member.alone name ↔ ¬ HoldsLabel member.value := by
    rw [← prefixLabels_eq_self_iff named, Member.flattened, Member.alone, Member.mk.injEq,
      and_iff_right rfl]
  constructor
  · intro same member inside
    have lists := body_inj
      (List.forall_mem_map.mpr fun member inside => (plain member inside).flattened named)
      (List.forall_mem_map.mpr fun member inside => (plain member inside).alone named) same
    exact (kept member).mp (List.map_inj_left.mp lists member inside)
  · intro clean
    rw [List.map_congr_left fun member inside => (kept member).mpr (clean member inside)]

/-- A colon that does not follow a name is left alone. -/
theorem flattenNested_group_font :
    flattenNested "font: \x7b family: arial; size: 2em (:x); \x7d".toList =
      " font-family: arial; font-size: 2em (:x); ".toList := by
  let members : List Member :=
    [⟨"family".toList, "arial".toList⟩, ⟨"size".toList, "2em (:x)".toList⟩]
  have source : group "font".toList members =
      "font: \x7b family: arial; size: 2em (:x); \x7d".toList := by decide +kernel
  have result : body (members.map (Member.alone "font".toList)) =
      " font-family: arial; font-size: 2em (:x); ".toList := by decide +kernel
  rw [← source, ← result]
  exact (flattenNested_group_iff "font".toList members (by decide +kernel)
    (by decide +kernel)).2.mpr (by decide +kernel)

/-- The scheme of an address is taken for a label. -/
theorem flattenNested_group_address :
    flattenNested "background: \x7b image: url(data:image/png); \x7d".toList =
        " background-image: url(background-data:image/png); ".toList ∧
      flattenNested "background: \x7b image: url(data:image/png); \x7d".toList ≠
        " background-image: url(data:image/png); ".toList := by
  decide +kernel

end Declaration

end Flatsheet
