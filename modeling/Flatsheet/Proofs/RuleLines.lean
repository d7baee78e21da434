import Mathlib.Data.List.Forall2
import Flatsheet.Proofs.Selectors

/-!
The lines of a rule. There is one for each media condition that a selector of the rule has, in the
order in which the conditions first come, and in it each text that a selector has under this
condition, once, in the order in which the texts first come. Conditions may be mixed and selectors
may be repeated at will. Which lines these are does not depend on how they are gathered, because
only one list has given elements in the order in which they first come.
-/

namespace Flatsheet.Css

universe u

/-- `firsts` are the values that the elements of a list have, each once, in the order of the first
elements that have them. -/
structure Firsts {α : Type u} (value? : α → Option Text) (list : List α) (firsts : List Text) :
    Prop where
  once : firsts.Nodup
  mem_iff : ∀ value, value ∈ firsts ↔ ∃ a ∈ list, value? a = some value
  ordered : firsts.Pairwise fun earlier later =>
    list.findIdx (value? · = some earlier) < list.findIdx (value? · = some later)

section

variable {α : Type u} {value? : α → Option Text} {a : α} {list : List α} {value : Text}
  {firsts others : List Text}

theorem findIdx_cons_of_ne (other : value? a ≠ some value) :
    (a :: list).findIdx (value? · = some value) = list.findIdx (value? · = some value) + 1 := by
  simp [List.findIdx_cons, other]

theorem findIdx_cons_of_eq (has : value? a = some value) :
    (a :: list).findIdx (value? · = some value) = 0 := by
  simp [List.findIdx_cons, has]

namespace Firsts

theorem nil : Firsts value? [] [] := ⟨.nil, by simp, .nil⟩

theorem skip (valueless : value? a = none) (later : Firsts value? list firsts) :
    Firsts value? (a :: list) firsts := by
  refine ⟨later.once, fun value => ?_, later.ordered.imp fun before => ?_⟩
  · simp [later.mem_iff, valueless]
  · rw [findIdx_cons_of_ne (by simp [valueless]), findIdx_cons_of_ne (by simp [valueless])]
    exact Nat.succ_lt_succ before

theorem cons (has : value? a = some value) (later : Firsts value? list firsts) :
    Firsts value? (a :: list) (value :: firsts.filter (· ≠ value)) := by
  have apart {other : Text} (listed : other ∈ firsts.filter (· ≠ value)) :
      value? a ≠ some other := by
    have differs : other ≠ value := by simpa using (List.mem_filter.mp listed).2
    rw [has]
    exact fun same => differs (Option.some.inj same).symm
  refine ⟨List.nodup_cons.mpr ⟨by simp, later.once.filter _⟩, fun other => ?_,
    List.pairwise_cons.mpr ⟨fun other listed => ?_, ?_⟩⟩
  · by_cases same : other = value
    · simp [same, has]
    · simp [same, has, later.mem_iff, Ne.symm same]
  · rw [findIdx_cons_of_eq has, findIdx_cons_of_ne (apart listed)]
    exact Nat.succ_pos _
  · refine (later.ordered.filter _).imp_of_mem fun first second before => ?_
    rw [findIdx_cons_of_ne (apart first), findIdx_cons_of_ne (apart second)]
    exact Nat.succ_lt_succ before

theorem unique (one : Firsts value? list firsts) (two : Firsts value? list others) :
    firsts = others := by
  have same : firsts.Perm others := (List.perm_ext_iff_of_nodup one.once two.once).mpr fun value =>
    (one.mem_iff value).trans (two.mem_iff value).symm
  refine same.eq_of_pairwise (fun earlier later _ _ before after => ?_) one.ordered two.ordered
  exact absurd before after.asymm

end Firsts

theorem firsts_distinct (value? : α → Option Text) (list : List α) :
    Firsts value? list (distinct (list.filterMap value?)) := by
  induction list with
  | nil => exact .nil
  | cons a list ih =>
      cases has : value? a with
      | none =>
          rw [List.filterMap_cons_none has]
          exact ih.skip has
      | some value =>
          rw [List.filterMap_cons_some has]
          exact ih.cons has

theorem firsts_iff : Firsts value? list firsts ↔ distinct (list.filterMap value?) = firsts := by
  constructor
  · exact fun listed => (firsts_distinct value? list).unique listed
  · rintro rfl
    exact firsts_distinct value? list

end

/-- A block inside its media condition, if it has one. -/
def under (media block : Text) : Text :=
  if media = [] then block else "@media ".toList ++ media ++ ' ' :: braced block

/-- The text that a selector has under a media condition. An empty text does not count. -/
def textUnder? (media : Text) (selector : Selector) : Option Text :=
  if selector.media = media ∧ selector.text ≠ [] then some selector.text else none

/-- The line of a rule under a media condition: the texts that its selectors have there, then all of
its declarations; or the declarations alone if there are no such texts. -/
structure LineUnder (rule : Rule) (media : Text) (texts : List Text) (line : Text) : Prop where
  listed : Firsts (textUnder? media) rule.selectors texts
  bare : texts = [] → line = under media (Text.join [' '] rule.declarations)
  selected : texts ≠ [] → line = under media
    (Text.join ", " texts ++ ' ' :: braced (Text.join [' '] rule.declarations))

section

variable {rule : Rule} {media text : Text} {texts : List Text}

theorem textsUnder_eq (selectors : List Selector) (media : Text) :
    textsUnder selectors media = distinct (selectors.filterMap (textUnder? media)) := by
  rw [textsUnder]
  congr 1
  induction selectors with
  | nil => rfl
  | cons selector selectors ih =>
      by_cases same : selector.media = media
      · by_cases empty : selector.text = []
        · have textless : textUnder? media selector = none := if_neg fun both => both.2 empty
          rw [List.filterMap_cons_none textless, ← ih, List.filter_cons_of_pos (by simp [same]),
            List.map_cons, List.filter_cons_of_neg (by simp [empty])]
        · have named : textUnder? media selector = some selector.text := if_pos ⟨same, empty⟩
          rw [List.filterMap_cons_some named, ← ih, List.filter_cons_of_pos (by simp [same]),
            List.map_cons, List.filter_cons_of_pos (by simp [empty])]
      · have elsewhere : textUnder? media selector = none := if_neg fun both => same both.1
        rw [List.filterMap_cons_none elsewhere, ← ih, List.filter_cons_of_neg (by simp [same])]

theorem line_nil (body media : Text) : line body [] media = under media body := rfl

theorem line_of_ne_nil (body media : Text) (nonempty : texts ≠ []) :
    line body texts media = under media (Text.join ", " texts ++ ' ' :: braced body) := by
  rw [line, if_neg nonempty]
  rfl

theorem lineUnder_iff :
    LineUnder rule media texts text ↔ Firsts (textUnder? media) rule.selectors texts ∧
      line (Text.join [' '] rule.declarations) texts media = text := by
  constructor
  · rintro ⟨listed, bare, selected⟩
    refine ⟨listed, ?_⟩
    by_cases empty : texts = []
    · rw [bare empty, empty, line_nil]
    · rw [selected empty, line_of_ne_nil _ _ empty]
  · rintro ⟨listed, rfl⟩
    refine ⟨listed, ?_, line_of_ne_nil _ _⟩
    rintro rfl
    exact line_nil _ _

theorem exists_lineUnder_iff :
    (∃ texts, LineUnder rule media texts text) ↔
      line (Text.join [' '] rule.declarations) (textsUnder rule.selectors media) media = text := by
  rw [textsUnder_eq]
  simp only [lineUnder_iff, firsts_iff, exists_eq_left']

theorem ruleLines_eq_iff {lines : List Text} :
    ruleLines rule = lines ↔
      ∃ conditions, Firsts (fun selector => some selector.media) rule.selectors conditions ∧
        List.Forall₂ (fun media line => ∃ texts, LineUnder rule media texts line)
          conditions lines := by
  simp only [firsts_iff, exists_eq_left', exists_lineUnder_iff, List.filterMap_eq_map']
  rw [← List.forall₂_map_left_iff (R := Eq), List.forall₂_eq_eq_eq]
  rfl

theorem texts_eq_nil_iff (listed : Firsts (textUnder? media) rule.selectors texts) :
    texts = [] ↔ ∀ selector ∈ rule.selectors, selector.media = media → selector.text = [] := by
  rw [List.eq_nil_iff_forall_not_mem]
  constructor
  · intro absent selector inside same
    by_contra named
    exact absent selector.text
      ((listed.mem_iff _).mpr ⟨selector, inside, if_pos ⟨same, named⟩⟩)
  · intro nameless value member
    obtain ⟨selector, inside, has⟩ := (listed.mem_iff value).mp member
    obtain ⟨⟨same, named⟩, _⟩ := Option.ite_none_right_eq_some.mp has
    exact named (nameless selector inside same)

theorem under_injective (media : Text) : Function.Injective (under media) := by
  intro one two same
  unfold under at same
  split at same
  · exact same
  · simpa [braced] using same

/-- With texts in front a line is longer than the declarations alone. -/
theorem LineUnder.eq_bare_iff (written : LineUnder rule media texts text) :
    text = under media (Text.join [' '] rule.declarations) ↔ texts = [] := by
  refine ⟨fun same => ?_, written.bare⟩
  by_contra nonempty
  have block := under_injective media ((written.selected nonempty).symm.trans same)
  have lengths := congrArg List.length block
  simp only [braced, List.length_append, List.length_cons] at lengths
  omega

end

/-- The lines of a rule group its selectors by media condition, without loss or repetition. There is
one line for each condition, in the order in which the conditions first come. It has the texts under
this condition, each once and in the order in which they first come, and then all declarations. It
has the declarations alone just if all selectors under the condition have empty texts. -/
theorem ruleLines_grouped (rule : Rule) :
    (∀ lines, ruleLines rule = lines ↔
      ∃ conditions, Firsts (fun selector => some selector.media) rule.selectors conditions ∧
        List.Forall₂ (fun media line => ∃ texts, LineUnder rule media texts line)
          conditions lines) ∧
    ∀ media texts line, LineUnder rule media texts line →
      (line = under media (Text.join [' '] rule.declarations) ↔
        ∀ selector ∈ rule.selectors, selector.media = media → selector.text = []) := by
  refine ⟨fun lines => ruleLines_eq_iff, fun media texts line written => ?_⟩
  rw [written.eq_bare_iff, texts_eq_nil_iff written.listed]

/-- Conditions are mixed, selectors are repeated, and under one condition there is no text. -/
theorem ruleLines_grouped_mixed :
    let print : Text := "print"
    let screen : Text := "screen"
    let rule : Rule :=
      ⟨[⟨['b'], print⟩, ⟨['a'], []⟩, ⟨[], screen⟩, ⟨['c'], print⟩, ⟨['b'], print⟩, ⟨[], []⟩,
        ⟨['b'], []⟩, ⟨['a'], []⟩], ["x: y;".toList, "z: w;".toList], []⟩
    let bare : Text := "@media screen \x7b x: y; z: w; \x7d"
    let lines : List Text :=
      ["@media print \x7b b, c \x7b x: y; z: w; \x7d \x7d".toList,
        "a, b \x7b x: y; z: w; \x7d".toList, bare]
    ruleLines rule = lines ∧
      (∃ conditions, Firsts (fun selector => some selector.media) rule.selectors conditions ∧
        List.Forall₂ (fun media line => ∃ texts, LineUnder rule media texts line)
          conditions lines) ∧
      LineUnder rule screen [] bare ∧
      (bare = under screen (Text.join [' '] rule.declarations) ↔
        ∀ selector ∈ rule.selectors, selector.media = screen → selector.text = []) := by
  intro print screen rule bare lines
  obtain ⟨grouped, alone⟩ := ruleLines_grouped rule
  have made : ruleLines rule = lines := by decide +kernel
  have textless : distinct (rule.selectors.filterMap (textUnder? screen)) = [] := by
    decide +kernel
  have written : LineUnder rule screen [] bare :=
    lineUnder_iff.mpr ⟨firsts_iff.mpr textless, by decide +kernel⟩
  exact ⟨made, (grouped lines).mp made, written, alone screen [] bare written⟩

end Flatsheet.Css
