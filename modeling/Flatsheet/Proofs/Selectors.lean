import Flatsheet.Proofs.Words
import Flatsheet.Sheet.Css

/-!
Selector lists and selectors. A list of selectors written with commas is split into these selectors
again, as long as no selector has a comma outside brackets and none but the last leaves a bracket
open. Combining selectors brings in no character that neither of them holds, except a space.
-/

namespace Flatsheet

namespace Text

/-- No comma outside brackets, if `depth` brackets are open before the text. -/
def Uncut : (depth : Nat) → Text → Prop
  | _, [] => True
  | depth, c :: text => (c = ',' → depth ≠ 0) ∧ Uncut (bracketDepth depth c) text

instance Uncut.decidable : (depth : Nat) → (text : Text) → Decidable (Uncut depth text)
  | _, [] => .isTrue trivial
  | depth, c :: text =>
      have := Uncut.decidable (bracketDepth depth c) text
      inferInstanceAs (Decidable ((c = ',' → depth ≠ 0) ∧ Uncut (bracketDepth depth c) text))

/-- Every bracket that the text opens is closed, and it has no comma outside brackets. -/
structure Unsplit (text : Text) : Prop where
  closed : text.foldl bracketDepth 0 = 0
  uncut : Uncut 0 text

instance (text : Text) : Decidable (Unsplit text) :=
  decidable_of_iff (text.foldl bracketDepth 0 = 0 ∧ Uncut 0 text)
    ⟨fun ⟨closed, uncut⟩ => ⟨closed, uncut⟩, fun ⟨closed, uncut⟩ => ⟨closed, uncut⟩⟩

theorem Uncut.append {depth : Nat} {front rest : Text} (first : Uncut depth front)
    (second : Uncut (front.foldl bracketDepth depth) rest) : Uncut depth (front ++ rest) := by
  induction front generalizing depth with
  | nil => exact second
  | cons c front ih => exact ⟨first.1, ih first.2 second⟩

theorem Unsplit.append {front rest : Text} (first : Unsplit front) (second : Unsplit rest) :
    Unsplit (front ++ rest) := by
  refine ⟨?_, first.uncut.append ?_⟩
  · rw [List.foldl_append, first.closed, second.closed]
  · rw [first.closed]
    exact second.uncut

theorem flatten_splitOutside (separator : Text) (depth : Nat) (text : Text) :
    (splitOutside separator depth text).flatten.Sublist text := by
  induction text generalizing depth with
  | nil => exact .slnil
  | cons c text ih =>
      rw [splitOutside]
      split
      · exact (ih _).cons c
      · have kept := ih (bracketDepth depth c)
        cases parts : splitOutside separator (bracketDepth depth c) text with
        | nil => simp
        | cons part rest =>
            rw [parts] at kept
            exact kept.cons_cons c

theorem splitOutside_cons (separator : Text) (depth : Nat) (text : Text) :
    ∃ first others, splitOutside separator depth text = first :: others := by
  induction text generalizing depth with
  | nil => exact ⟨[], [], rfl⟩
  | cons c text ih =>
      obtain ⟨first, others, split⟩ := ih (bracketDepth depth c)
      rw [splitOutside]
      split
      · exact ⟨[], _, rfl⟩
      · exact ⟨c :: first, others, by rw [split]; rfl⟩

theorem splitOutside_append {depth : Nat} {text : Text} (uncut : Uncut depth text) (rest : Text) :
    splitOutside [','] depth (text ++ rest) =
      (splitOutside [','] (text.foldl bracketDepth depth) rest).modifyHead (text ++ ·) := by
  induction text generalizing depth with
  | nil => exact (congrFun List.modifyHead_id _).symm
  | cons c text ih =>
      have inside : ¬([c] = [','] ∧ bracketDepth depth c = 0) := by
        rintro ⟨same, outside⟩
        obtain rfl : c = ',' := by simpa using same
        exact uncut.1 rfl outside
      rw [List.cons_append, splitOutside, if_neg inside, ih uncut.2, List.modifyHead_modifyHead]
      rfl

theorem splitOutside_of_uncut {depth : Nat} {text : Text} (uncut : Uncut depth text) :
    splitOutside [','] depth text = [text] := by
  have whole := splitOutside_append uncut []
  rw [List.append_nil] at whole
  simpa [splitOutside] using whole

theorem bracketDepth_of_blank {c : Char} (blank : isBlank c = true) (depth : Nat) :
    c ≠ ',' ∧ bracketDepth depth c = depth := by
  have solid : [',', '(', '[', ')', ']'].all (fun mark => !isBlank mark) = true := by decide
  have apart : ∀ mark ∈ [',', '(', '[', ')', ']'], c ≠ mark := by
    rintro mark listed rfl
    simpa [blank] using List.all_eq_true.mp solid c listed
  simp only [List.forall_mem_cons] at apart
  simp [bracketDepth, apart]

theorem foldl_bracketDepth_filter (depth : Nat) (text : Text) :
    (text.filter fun c => !isBlank c).foldl bracketDepth depth = text.foldl bracketDepth depth := by
  induction text generalizing depth with
  | nil => rfl
  | cons c text ih =>
      cases blank : isBlank c with
      | true =>
          rw [List.filter_cons_of_neg (by simp [blank]), ih, List.foldl_cons,
            (bracketDepth_of_blank blank depth).2]
      | false =>
          rw [List.filter_cons_of_pos (by simp [blank]), List.foldl_cons, ih, List.foldl_cons]

theorem uncut_filter {depth : Nat} {text : Text} :
    Uncut depth (text.filter fun c => !isBlank c) ↔ Uncut depth text := by
  induction text generalizing depth with
  | nil => exact .rfl
  | cons c text ih =>
      cases blank : isBlank c with
      | true =>
          obtain ⟨other, level⟩ := bracketDepth_of_blank blank depth
          rw [List.filter_cons_of_neg (by simp [blank]), ih, Uncut, level]
          simp [other]
      | false => rw [List.filter_cons_of_pos (by simp [blank]), Uncut, Uncut, ih]

/-- Pieces as they stand between commas outside brackets, if `depth` brackets are open before the
first one. Only the last piece may leave a bracket open. -/
def Divided : (depth : Nat) → List Text → Prop
  | _, [] => True
  | depth, piece :: pieces =>
      Uncut depth piece ∧ (pieces ≠ [] → piece.foldl bracketDepth depth = 0) ∧ Divided 0 pieces

theorem divided_of_unsplit {parts : List Text} (unsplit : ∀ part ∈ parts, Unsplit part) :
    Divided 0 parts := by
  induction parts with
  | nil => trivial
  | cons part parts ih =>
      obtain ⟨first, later⟩ := List.forall_mem_cons.mp unsplit
      exact ⟨first.uncut, fun _ => first.closed, ih later⟩

/-- Blanks make no difference to where a text is cut. -/
theorem Divided.map {depth : Nat} {pieces : List Text} {respace : Text → Text}
    (same : ∀ text, (respace text).filter (fun c => !isBlank c) = text.filter fun c => !isBlank c)
    (divided : Divided depth pieces) : Divided depth (pieces.map respace) := by
  induction pieces generalizing depth with
  | nil => trivial
  | cons piece pieces ih =>
      obtain ⟨uncut, closed, later⟩ := divided
      refine ⟨?_, fun more => ?_, ih later⟩
      · rwa [← uncut_filter, same, uncut_filter]
      · rw [← foldl_bracketDepth_filter, same, foldl_bracketDepth_filter]
        exact closed (by simpa using more)

theorem splitOutside_join {depth : Nat} {pieces : List Text} (divided : Divided depth pieces)
    (nonempty : pieces ≠ []) : splitOutside [','] depth (join [','] pieces) = pieces := by
  induction pieces generalizing depth with
  | nil => contradiction
  | cons piece pieces ih =>
      obtain ⟨uncut, closed, later⟩ := divided
      cases pieces with
      | nil => rw [join_singleton, splitOutside_of_uncut uncut]
      | cons next pieces =>
          have cut (rest : Text) :
              splitOutside [','] 0 (',' :: rest) = [] :: splitOutside [','] 0 rest := by
            simp [splitOutside, bracketDepth]
          rw [join_cons_cons, splitOutside_append uncut, closed (by simp), List.singleton_append,
            cut, ih later (by simp)]
          simp

theorem join_cons_head (separator : Text) (c : Char) (part : Text) (parts : List Text) :
    join separator ((c :: part) :: parts) = c :: join separator (part :: parts) := by
  cases parts <;> simp

/-- The space after a comma belongs to the next piece. -/
theorem join_comma_space (part : Text) (parts : List Text) :
    join ", " (part :: parts) = join [','] (part :: parts.map (' ' :: ·)) := by
  induction parts generalizing part with
  | nil => simp
  | cons next parts ih =>
      rw [join_cons_cons, ih, List.map_cons, join_cons_cons, join_cons_head]
      rfl

theorem splitTopLevel_join {parts : List Text} (divided : Divided 0 parts)
    (whole : ∀ part ∈ parts, part ≠ [] ∧ part.collapse = part) :
    splitTopLevel (join ", " parts) = parts := by
  cases parts with
  | nil => rfl
  | cons part parts =>
      obtain ⟨uncut, closed, later⟩ := divided
      have spaced : Divided 0 (part :: parts.map (' ' :: ·)) :=
        ⟨uncut, fun more => closed (by simpa using more),
          later.map fun text => by simp [isBlank_space]⟩
      have collapsed : (part :: parts.map (' ' :: ·)).map collapse = part :: parts := by
        obtain ⟨first, others⟩ := List.forall_mem_cons.mp whole
        rw [List.map_cons, List.map_map, first.2]
        refine congrArg _ ((List.map_congr_left fun other listed => ?_).trans (List.map_id _))
        exact (collapse_cons_blank isBlank_space).trans (others other listed).2
      rw [splitTopLevel, splitTopLevelAt, join_comma_space, splitOutside_join spaced (by simp),
        collapsed, List.filter_eq_self]
      intro other listed
      simpa using (whole other listed).1

theorem mem_of_mem_splitTopLevel {text fragment : Text} {c : Char}
    (listed : fragment ∈ text.splitTopLevel) (member : c ∈ fragment) :
    c = ' ' ∨ c ∈ text ∧ isBlank c = false := by
  obtain ⟨part, inside, rfl⟩ := List.mem_map.mp (List.mem_filter.mp listed).1
  refine (mem_collapse member).imp_right fun ⟨kept, solid⟩ => ⟨?_, solid⟩
  exact (flatten_splitOutside _ _ _).subset (List.mem_flatten.mpr ⟨part, inside, kept⟩)

end Text

namespace Selector

theorem mediaCondition?_eq_some {fragment condition : Text}
    (found : mediaCondition? fragment = some condition) : fragment = mediaKeyword ++ condition := by
  unfold mediaCondition? at found
  split at found
  next c rest left =>
      split at found
      · contradiction
      · cases found
        exact Text.dropPrefix?_eq_some.mp left
  · exact Text.dropPrefix?_eq_some.mp found

theorem mem_nestText {parent fragment : Text} {c : Char} (member : c ∈ nestText parent fragment) :
    c ∈ parent ∨ c ∈ fragment ∨ c = ' ' := by
  have nested := Text.mem_of_mem_trim member
  split at nested
  · obtain ⟨d, inside, replaced⟩ := List.mem_flatMap.mp nested
    split at replaced
    · exact .inl replaced
    · obtain rfl := List.mem_singleton.mp replaced
      exact .inr (.inl inside)
  · rcases List.mem_append.mp nested with outer | inner
    · exact .inl outer
    · exact .inr ((List.mem_cons.mp inner).symm)

theorem mem_joinMedia {outer inner : Text} {c : Char} (member : c ∈ joinMedia outer inner) :
    c ∈ outer ∨ c ∈ inner ∨ c ∈ " and ".toList := by
  unfold joinMedia at member
  split at member
  · exact .inr (.inl member)
  · rcases List.mem_append.mp member with early | late
    · exact (List.mem_append.mp early).imp_right .inr
    · exact .inr (.inl late)

theorem isWord_space : isWord ' ' = false := by decide +kernel

theorem combine_media {condition : Text} (trimmed : Text.Trimmed condition) (parent : Selector) :
    combine parent ("@media ".toList ++ condition) =
      ⟨parent.text, joinMedia parent.media condition⟩ := by
  have found : mediaCondition? ("@media ".toList ++ condition) = some (' ' :: condition) := by
    have dropped : Text.dropPrefix? mediaKeyword ("@media ".toList ++ condition) =
        some (' ' :: condition) := Text.dropPrefix?_eq_some.mpr rfl
    rw [mediaCondition?, dropped]
    simp [isWord_space]
  rw [combine, found]
  simp only [Text.trim_cons_blank Text.isBlank_space, trimmed.trim_eq]

theorem combine_plain_text {text media : Text} (trimmed : Text.Trimmed text) (unnested : '&' ∉ text)
    (unlimited : isMediaQuery text = false) : combine ⟨[], media⟩ text = ⟨text, media⟩ := by
  have condition : mediaCondition? text = none := by simpa [isMediaQuery] using unlimited
  have nested : nestText [] text = text := by
    rw [nestText, if_neg unnested, List.nil_append, Text.trim_cons_blank Text.isBlank_space,
      trimmed.trim_eq]
  rw [combine, condition]
  simp only [nested]

end Selector

namespace Css

theorem mem_of_mem_distinct {text : Text} {texts : List Text} (member : text ∈ distinct texts) :
    text ∈ texts := by
  induction texts with
  | nil => exact member
  | cons first texts ih =>
      rw [distinct, List.mem_cons] at member
      rcases member with rfl | later
      · simp
      · exact List.mem_cons_of_mem _ (ih (List.mem_filter.mp later).1)

theorem nodup_distinct (texts : List Text) : (distinct texts).Nodup := by
  induction texts with
  | nil => exact .nil
  | cons text texts ih => exact List.nodup_cons.mpr ⟨by simp, ih.filter _⟩

theorem distinct_of_nodup {texts : List Text} (nodup : texts.Nodup) : distinct texts = texts := by
  induction texts with
  | nil => rfl
  | cons text texts ih =>
      obtain ⟨absent, rest⟩ := List.nodup_cons.mp nodup
      rw [distinct, ih rest, List.filter_eq_self.mpr]
      intro other listed
      exact decide_eq_true fun same => absent (same ▸ listed)

theorem distinct_constant {text : Text} {texts : List Text} (same : ∀ other ∈ texts, other = text) :
    distinct (text :: texts) = [text] := by
  rw [distinct, List.filter_eq_nil_iff.mpr]
  intro other listed
  simpa using same other (mem_of_mem_distinct listed)

theorem mem_distinct {text : Text} {texts : List Text} (member : text ∈ texts) :
    text ∈ distinct texts := by
  induction texts with
  | nil => cases member
  | cons first texts ih =>
      by_cases same : text = first
      · simp [distinct, same]
      · simpa [distinct, same] using ih (by simpa [same] using member)

end Css

end Flatsheet
