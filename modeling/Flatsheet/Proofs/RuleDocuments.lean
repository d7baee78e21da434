import Flatsheet.Proofs.JsonTexts
import Flatsheet.Sheet.Record

/-!
Rule trees through records and JSON. A record has all the fields of its rule, so the rule that it
describes is that rule, at every depth. It holds nothing but texts, lists and records, so it is what
its JSON document reads as.
-/

namespace Flatsheet

theorem mapM_map_of_inverse {α β : Type} {encode : α → β} {decode : β → Option α}
    (inverse : ∀ value, decode (encode value) = some value) (values : List α) :
    (values.map encode).mapM decode = some values := by
  induction values with
  | nil => rfl
  | cons value values ih =>
      rw [List.map_cons, List.mapM_cons, inverse, ih]
      rfl

theorem Selector.ofData?_toData (selector : Selector) :
    ofData? selector.toData = some selector := rfl

namespace Rule

section

variable (rule : Rule) (fields : List (Text × Data))

theorem withFields?_children {children : List Rule} {elements : List Data}
    (described : ofDataAll? elements = some children) :
    withFields? rule (("children", .list elements) :: fields) =
      withFields? { rule with children } fields := by
  rw [withFields?, if_pos rfl, described]
  rfl

theorem withFields?_declarations (declarations : List Text) :
    withFields? rule (("declarations", .list (declarations.map .text)) :: fields) =
      withFields? { rule with declarations } fields := by
  have inverse (text : Text) : Data.text? (.text text) = some text := rfl
  rw [withFields?, if_neg (by decide), if_pos rfl]
  simp only [Data.list?, Option.bind_eq_bind, Option.bind_some, mapM_map_of_inverse inverse]
  rfl

theorem withFields?_selectors (selectors : List Selector) :
    withFields? rule (("selectors", .list (selectors.map Selector.toData)) :: fields) =
      withFields? { rule with selectors } fields := by
  rw [withFields?, if_neg (by decide), if_neg (by decide), if_pos rfl]
  simp only [Data.list?, Option.bind_eq_bind, Option.bind_some,
    mapM_map_of_inverse Selector.ofData?_toData]
  rfl

end

mutual

theorem ofData?_toData : (rule : Rule) → ofData? rule.toData = some rule
  | ⟨selectors, declarations, children⟩ => by
      rw [toData, ofData?, withFields?_children _ _ (ofDataAll?_toDataAll children),
        withFields?_declarations, withFields?_selectors]
      rfl

theorem ofDataAll?_toDataAll : (rules : List Rule) → ofDataAll? (toDataAll rules) = some rules
  | [] => rfl
  | rule :: rules => by
      rw [toDataAll, ofDataAll?, ofData?_toData rule, ofDataAll?_toDataAll rules]
      rfl

end

theorem textual_map {α : Type} {encode : α → Data} (textual : ∀ value, Json.Textual (encode value))
    (values : List α) : Json.Textual (.list (values.map encode)) := by
  refine .list fun element member => ?_
  obtain ⟨value, _, rfl⟩ := List.mem_map.mp member
  exact textual value

theorem textual_selector (selector : Selector) : Json.Textual selector.toData := by
  refine .record fun field member => ?_
  simp only [List.mem_cons, List.not_mem_nil, or_false] at member
  rcases member with rfl | rfl <;> exact .text _

mutual

theorem textual_toData : (rule : Rule) → Json.Textual rule.toData
  | ⟨selectors, declarations, children⟩ => by
      rw [toData]
      refine .record fun field member => ?_
      simp only [List.mem_cons, List.not_mem_nil, or_false] at member
      rcases member with rfl | rfl | rfl
      · exact .list (textual_toDataAll children)
      · exact textual_map .text declarations
      · exact textual_map textual_selector selectors

theorem textual_toDataAll : (rules : List Rule) → ∀ data ∈ toDataAll rules, Json.Textual data
  | [], _, member => by
      rw [toDataAll] at member
      cases member
  | rule :: rules, data, member => by
      rw [toDataAll] at member
      rcases List.mem_cons.mp member with rfl | later
      · exact textual_toData rule
      · exact textual_toDataAll rules data later

end

/-- A rule tree is what its record describes and what its JSON document describes, which is written
in printable ASCII. There is nothing to complete in either. -/
theorem ofJson?_toJson (rule : Rule) :
    ofData? rule.toData = some rule ∧ ofJson? rule.toJson = some rule ∧
      completeJson rule.toJson = .ok rule.toData ∧ rule.toJson.all Json.isPrintable = true := by
  have described := ofData?_toData rule
  have read := Json.read_write (textual_toData rule)
  refine ⟨described, ?_, ?_, Json.printable_write (textual_toData rule)⟩
  · rw [ofJson?, toJson, read]
    exact described
  · have completed : completeData rule.toData = .ok rule.toData := by
      rw [completeData, described]
    simp only [completeJson, toJson, read, Except.mapError, bind, Except.bind, completed]

end Rule

end Flatsheet
