import Flatsheet.Conversion.Context
import Flatsheet.Proofs.Headings
import Flatsheet.Proofs.Table
import Flatsheet.Proofs.Words

/-!
Registration of the definitions of a sheet. The definitions are taken out and what stands between
them is left. Of the definitions of one name the first is filed, unless the table knows the name
already, and each later one is reported.
-/

namespace Flatsheet

namespace Mixin

open Pattern

/-- A definition in its parts, as they are written. -/
structure Source where
  name : Text
  parameters : Text
  body : Text

namespace Source

def key (source : Source) : Text := Mixin.key source.name

def mixin (source : Source) : Mixin :=
  ⟨source.name, Parameter.listOfText source.parameters, source.body⟩

def heading (source : Source) : Text :=
  "@mixin".toList ++ [' '] ++ source.name ++ '(' :: (source.parameters ++ [')']) ++ [' '] ++ ['{']

def text (source : Source) : Text := source.heading ++ (source.body ++ ['}'])

structure Proper (source : Source) : Prop where
  named : Name source.name
  closed : ')' ∉ source.parameters
  balanced : source.body.Balanced

instance (source : Source) : Decidable source.Proper :=
  decidable_of_iff (Name source.name ∧ ')' ∉ source.parameters ∧ source.body.Balanced)
    ⟨fun ⟨named, closed, balanced⟩ => ⟨named, closed, balanced⟩,
      fun proper => ⟨proper.named, proper.closed, proper.balanced⟩⟩

end Source

/-- Definitions, each after the text that stands before it, and the text after the last one. -/
def sheet (parts : List (Text × Source)) (last : Text) : Text :=
  parts.flatMap (fun part => part.1 ++ part.2.text) ++ last

/-- A definition as it is met: on which line of the text as it is by then, and whether its key is
known by then. -/
structure Meeting where
  definition : Source
  line : Nat
  isKnown : Bool

/-- A key is known if the table holds it, or if an earlier definition has it. -/
def meetings (known : List Text) (line : Nat) (parts : List (Text × Source)) : List Meeting :=
  parts.mapIdx fun i part =>
    ⟨part.2, line + Text.newlines ((parts.take (i + 1)).flatMap Prod.fst),
      decide (part.2.key ∈ known ++ (parts.take i).map fun earlier => earlier.2.key)⟩

theorem meetings_cons (known : List Text) (line : Nat) (gap : Text) (definition : Source)
    (parts : List (Text × Source)) :
    meetings known line ((gap, definition) :: parts) =
      ⟨definition, line + Text.newlines gap, decide (definition.key ∈ known)⟩ ::
        meetings (known ++ [definition.key]) (line + Text.newlines gap) parts := by
  have counted (rest : Text) : line + Text.newlines (gap ++ rest) =
      line + Text.newlines gap + Text.newlines rest := by
    rw [Nat.add_assoc, Text.newlines, List.count_append]
    rfl
  simp [meetings, List.mapIdx_cons, counted, show Text.newlines [] = 0 from rfl]

theorem definition?_source {source : Source} (proper : source.Proper) (rest : Text) :
    definition? (source.text ++ rest) = some (⟨source.heading, source.mixin⟩, rest) := by
  have listed : Listed (some source.parameters) ('(' :: (source.parameters ++ [')'])) :=
    .inr ⟨[], source.parameters, rfl, .nil, proper.closed, rfl⟩
  have found := definition?_written Text.Blank.space (by simp) proper.named.2 proper.named.1 listed
    Text.Blank.space proper.balanced rest
  have split : source.text ++ rest = source.heading ++ (source.body ++ '}' :: rest) := by
    simp [Source.text]
  rw [split]
  exact found

theorem Source.head?_text (source : Source) : source.text.head? = some '@' := by
  have keyword : "@mixin".toList.head? = some '@' := by decide +kernel
  unfold text heading
  simp only [List.head?_append, keyword, Option.some_or]

/-- No definition begins in a text without the keyword, whether or not a definition follows. -/
theorem definition?_of_apart {start rest : Text} (nonempty : start ≠ [])
    (apart : ¬ "@mixin".toList <:+: start) (follows : ∀ c ∈ rest.head?, c = '@') :
    definition? (start ++ rest) = none := by
  rw [Option.eq_none_iff_forall_ne_some]
  rintro ⟨definition, left⟩ found
  obtain ⟨blanks, list, written, gap, inside, _, _, _, _, _, _, _, _, heading, split⟩ :=
    definition?_eq_some found
  rw [heading] at split
  simp only [List.append_assoc] at split
  rcases List.append_eq_append_iff.mp split with ⟨more, whole, after⟩ | ⟨more, whole, _⟩
  · cases more with
    | nil => exact apart ⟨[], [], by simpa using whole⟩
    | cons c more =>
        obtain rfl := follows c (by rw [after]; rfl)
        obtain ⟨first, start, rfl⟩ := List.exists_cons_of_ne_nil nonempty
        have letters : "@mixin".toList = '@' :: "mixin".toList := by decide +kernel
        have later : "mixin".toList = start ++ '@' :: more :=
          (List.cons.inj (letters.symm.trans whole)).2
        have member : '@' ∈ "mixin".toList := by simp [later]
        exact absurd member (by decide)
  · exact apart ⟨[], more, by simpa using whole.symm⟩

theorem cut_gap {gap rest : Text} (apart : ¬ "@mixin".toList <:+: gap)
    (follows : ∀ c ∈ rest.head?, c = '@') :
    definition?.cut (gap ++ rest) = gap.map .char ++ definition?.cut rest := by
  refine cut_append_of_absent fun start suffix nonempty => ?_
  exact definition?_of_apart nonempty (fun inside => apart (inside.trans suffix.isInfix)) follows

theorem cut_sheet_cons {gap : Text} {source : Source} (proper : source.Proper)
    (apart : ¬ "@mixin".toList <:+: gap) (parts : List (Text × Source)) (last : Text) :
    definition?.cut (sheet ((gap, source) :: parts) last) =
      gap.map .char ++ .hit ⟨source.heading, source.mixin⟩ source.text ::
        definition?.cut (sheet parts last) := by
  have split : sheet ((gap, source) :: parts) last =
      gap ++ (source.text ++ sheet parts last) := by simp [sheet]
  have nonempty : source.text ≠ [] := by
    intro empty
    have head := source.head?_text
    rw [empty] at head
    cases head
  have follows : ∀ c ∈ (source.text ++ sheet parts last).head?, c = '@' := by
    intro c head
    rw [List.head?_append, source.head?_text] at head
    exact (Option.some.inj head).symm
  rw [split, cut_gap apart follows, cut_of_some nonempty (definition?_source proper _)]

/-- What replaces a definition: nothing, once it is registered. -/
def registered (line : Nat) (definition : Definition) :
    StateM (Table Mixin × List Notice) Text := do
  register line definition
  return []

section

variable {line : Nat} {mixins : Table Mixin} {notices : List Notice}

theorem run_registered_duplicate {definition : Definition}
    (known : mixins.contains (key definition.mixin.name) = true) :
    (registered line definition).run (mixins, notices) = ([], mixins, notices ++
      [⟨.duplicateMixin definition.mixin.name, some line, some definition.heading⟩]) := by
  change ([], if mixins.contains (key definition.mixin.name) then _ else _) = _
  rw [if_pos known]

theorem run_registered_first {definition : Definition}
    (free : ¬ mixins.contains (key definition.mixin.name) = true) :
    (registered line definition).run (mixins, notices) =
      ([], mixins.insert (key definition.mixin.name) definition.mixin, notices) := by
  change ([], if mixins.contains (key definition.mixin.name) then _ else _) = _
  rw [if_neg free]

variable {source : Source}

theorem run_registered_of_known (known : mixins.contains source.key = true) :
    (registered line ⟨source.heading, source.mixin⟩).run (mixins, notices) =
      ([], mixins,
        notices ++ [⟨.duplicateMixin source.name, some line, some source.heading⟩]) :=
  run_registered_duplicate known

theorem run_registered_of_free (free : ¬ mixins.contains source.key = true) :
    (registered line ⟨source.heading, source.mixin⟩).run (mixins, notices) =
      ([], mixins.insert source.key source.mixin, notices) :=
  run_registered_first free

end

/-- The entries that are added for the definitions met. -/
def filed (met : List Meeting) : List (Text × Mixin) :=
  (met.filter fun meeting => !meeting.isKnown).map fun meeting =>
    (meeting.definition.key, meeting.definition.mixin)

/-- The notices about the definitions met. -/
def reported (met : List Meeting) : List Notice :=
  (met.filter fun meeting => meeting.isKnown).map fun meeting =>
    ⟨.duplicateMixin meeting.definition.name, some meeting.line, some meeting.definition.heading⟩

/-- Registration from some part of a sheet on, with what is known by then. -/
theorem run_splicePieces_sheet {parts : List (Text × Source)} {last : Text}
    (proper : ∀ part ∈ parts, part.2.Proper)
    (apart : ∀ part ∈ parts, ¬ "@mixin".toList <:+: part.1)
    (lastApart : ¬ "@mixin".toList <:+: last) {known : List Text} {mixins : Table Mixin}
    (same : ∀ key, key ∈ known ↔ key ∈ mixins.names) (line : Nat) (notices : List Notice) :
    (splicePieces registered line (definition?.cut (sheet parts last))).run (mixins, notices) =
      (parts.flatMap Prod.fst ++ last,
        ⟨mixins.entries ++ filed (meetings known line parts)⟩,
        notices ++ reported (meetings known line parts)) := by
  induction parts generalizing known mixins line notices with
  | nil =>
      have chars := cut_gap lastApart (by simp : ∀ c ∈ List.head? ([] : Text), c = '@')
      rw [List.append_nil] at chars
      rw [show sheet [] last = last from rfl, chars, run_splicePieces_chars]
      change (last ++ [], mixins, notices) = _
      simp [meetings, filed, reported]
  | cons part parts ih =>
      obtain ⟨gap, definition⟩ := part
      obtain ⟨first, later⟩ := List.forall_mem_cons.mp proper
      obtain ⟨gapApart, gapsApart⟩ := List.forall_mem_cons.mp apart
      rw [cut_sheet_cons first gapApart, run_splicePieces_chars, meetings_cons]
      have removed : Text.newlines [] = 0 := rfl
      by_cases repeated : definition.key ∈ known
      · have contained := Table.contains_iff.mpr ((same definition.key).mp repeated)
        have still : ∀ key, key ∈ known ++ [definition.key] ↔ key ∈ mixins.names := by
          intro key
          rw [List.mem_append, List.mem_singleton, ← same]
          exact ⟨fun either => either.elim id fun equal => equal ▸ repeated, .inl⟩
        rw [run_splicePieces_hit (run_registered_of_known contained), ih later gapsApart still]
        simp [filed, reported, repeated, removed]
      · have free : ¬ mixins.contains definition.key = true := fun contained =>
          repeated ((same definition.key).mpr (Table.contains_iff.mp contained))
        have entries : (mixins.insert definition.key definition.mixin).entries =
            mixins.entries ++ [(definition.key, definition.mixin)] :=
          Table.insert_of_get?_eq_none (by simpa [Table.contains] using free)
        have grown : ∀ key, key ∈ known ++ [definition.key] ↔
            key ∈ (mixins.insert definition.key definition.mixin).names := by
          intro key
          rw [Table.names, entries, List.map_append, List.mem_append, List.mem_append, same]
          rfl
        rw [run_splicePieces_hit (run_registered_of_free free), ih later gapsApart grown]
        simp [filed, reported, repeated, removed, entries]

end Mixin

namespace Conversion

open Mixin

theorem registerMixins_sheet {parts : List (Text × Source)} {last : Text}
    (proper : ∀ part ∈ parts, part.2.Proper)
    (apart : ∀ part ∈ parts, ¬ "@mixin".toList <:+: part.1)
    (lastApart : ¬ "@mixin".toList <:+: last) (context : Context) :
    let met := meetings context.mixins.names 1 parts
    (registerMixins (sheet parts last)).run.run context =
      (.ok (parts.flatMap Prod.fst ++ last),
        { context.report (reported met) with
          mixins := ⟨context.mixins.entries ++ filed met⟩ }) := by
  intro met
  have ran : (registerAll (sheet parts last)).run (context.mixins, []) = (_, _, [] ++ _) :=
    run_splicePieces_sheet proper apart lastApart (fun _ => Iff.rfl) 1 []
  let run := (registerAll (sheet parts last)).run (context.mixins, [])
  change (Except.ok run.1, { context.report run.2.2 with mixins := run.2.1 }) = _
  rw [show run = _ from ran, List.nil_append]

/-- Names that differ in how they are joined only, a name that the table holds, and a definition
inside another one. -/
theorem registerMixins_sheet_repeated :
    let parts : List (Text × Source) :=
      [("a \x7b x: y; \x7d\n", ⟨"m_n", "$p: 1px", " x: $p; b \x7b @mixin n() \x7b\x7d \x7d "⟩),
        ("\n", ⟨"m-n", "", "x: z;"⟩), ("", ⟨"n", "", ""⟩), ("b", ⟨"known", "$q", "\n"⟩)]
    let old : Mixin := ⟨"known", [], "x: y;"⟩
    let context : Context := { Context.start (some "s") Options.default Plugins.none
      (Library.ofTable Table.empty) Cache.empty with
        mixins := Table.ofList [("known".toList, old)] }
    let final := ((registerMixins (sheet parts "c")).run.run context).2
    ((∀ part ∈ parts, part.2.Proper) ∧ (∀ part ∈ parts, ¬ "@mixin".toList <:+: part.1)) ∧
      ((registerMixins (sheet parts "c")).run.run context).1.toOption =
        some "a \x7b x: y; \x7d\n\nbc".toList ∧
      final.mixins.entries =
        [("known".toList, old),
          ("m-n".toList, ⟨"m_n", [⟨"$p", some "1px"⟩], " x: $p; b \x7b @mixin n() \x7b\x7d \x7d "⟩),
          ("n".toList, ⟨"n", [], ""⟩)] ∧
      final.diagnostics =
        [⟨"s", .duplicateMixin "m-n", some 3, some "@mixin m-n() \x7b"⟩,
          ⟨"s", .duplicateMixin "known", some 3, some "@mixin known($q) \x7b"⟩] := by
  intro parts old context final
  have proper : ∀ part ∈ parts, part.2.Proper := by decide +kernel
  have apart : ∀ part ∈ parts, ¬ "@mixin".toList <:+: part.1 := by decide +kernel
  have lastApart : ¬ "@mixin".toList <:+: "c".toList := by decide +kernel
  have ran := registerMixins_sheet proper apart lastApart context
  refine ⟨⟨proper, apart⟩, ?_, ?_, ?_⟩
  · rw [ran]
    decide +kernel
  · simp only [final, ran]
    decide +kernel
  · simp only [final, ran]
    decide +kernel

end Conversion

end Flatsheet
