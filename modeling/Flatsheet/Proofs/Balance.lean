import Mathlib.Data.List.Infix
import Flatsheet.Proofs.Reading

/-!
Balanced braces. A text is balanced if it opens as many braces as it closes, and closes none that it
has not opened. Balance is followed by the number of braces that are open after each piece of a
text: a balanced piece leaves this number as it is, so it can be put in or taken out anywhere. The
body of a block is exactly the balanced text before the brace that closes the block.
-/

namespace Flatsheet

universe u

section

variable {α : Type u} [DecidableEq α] {opener closer : α}

/-- How many openers are unclosed after a list, if `depth` of them come before it. There is no
answer if a closer comes where none is unclosed. -/
def unclosed? (opener closer : α) : (depth : Nat) → List α → Option Nat
  | depth, [] => some depth
  | depth, a :: list =>
      if a = opener then unclosed? opener closer (depth + 1) list
      else if a = closer then
        if depth = 0 then none else unclosed? opener closer (depth - 1) list
      else unclosed? opener closer depth list

theorem unclosed?_opener (depth : Nat) (list : List α) :
    unclosed? opener closer depth (opener :: list) =
      unclosed? opener closer (depth + 1) list := by
  rw [unclosed?, if_pos rfl]

theorem unclosed?_closer (differ : opener ≠ closer) (depth : Nat) (list : List α) :
    unclosed? opener closer (depth + 1) (closer :: list) = unclosed? opener closer depth list := by
  rw [unclosed?, if_neg differ.symm, if_pos rfl, if_neg (Nat.succ_ne_zero depth),
    Nat.add_sub_cancel]

theorem unclosed?_closer_zero (differ : opener ≠ closer) (list : List α) :
    unclosed? opener closer 0 (closer :: list) = none := by
  rw [unclosed?, if_neg differ.symm, if_pos rfl, if_pos rfl]

theorem unclosed?_other {a : α} (unopened : a ≠ opener) (unclosed : a ≠ closer) (depth : Nat)
    (list : List α) :
    unclosed? opener closer depth (a :: list) = unclosed? opener closer depth list := by
  rw [unclosed?, if_neg unopened, if_neg unclosed]

theorem unclosed?_append (depth : Nat) (front rest : List α) :
    unclosed? opener closer depth (front ++ rest) =
      (unclosed? opener closer depth front).bind (unclosed? opener closer · rest) := by
  induction front generalizing depth with
  | nil => rfl
  | cons a front ih =>
      simp only [List.cons_append, unclosed?]
      split_ifs
      · exact ih _
      · rfl
      · exact ih _
      · exact ih _

theorem unclosed?_eq_some (differ : opener ≠ closer) {depth left : Nat} {list : List α} :
    unclosed? opener closer depth list = some left ↔
      left + list.count closer = depth + list.count opener ∧
        ∀ front, front <+: list → front.count closer ≤ depth + front.count opener := by
  induction list generalizing depth with
  | nil => simp [unclosed?, eq_comm]
  | cons a list ih =>
      have prefixes (bound : List α → Prop) :
          (∀ front, front <+: a :: list → bound front) ↔
            bound [] ∧ ∀ front, front <+: list → bound (a :: front) := by
        constructor
        · intro all
          exact ⟨all [] List.nil_prefix, fun front inside =>
            all _ (List.cons_prefix_cons.mpr ⟨rfl, inside⟩)⟩
        · rintro ⟨empty, later⟩ front inside
          rcases List.prefix_cons_iff.mp inside with rfl | ⟨rest, rfl, shorter⟩
          · exact empty
          · exact later rest shorter
      rw [prefixes]
      by_cases opens : a = opener
      · subst opens
        rw [unclosed?_opener, ih]
        simp only [List.count_cons_self, List.count_cons_of_ne differ, List.count_nil,
          Nat.zero_le, true_and]
        refine and_congr (by omega) (forall₂_congr fun front _ => by omega)
      · by_cases closes : a = closer
        · subst closes
          cases depth with
          | zero =>
              rw [unclosed?_closer_zero differ]
              simp only [reduceCtorEq, false_iff]
              rintro ⟨_, _, bounded⟩
              have first := bounded [] List.nil_prefix
              simp [opens] at first
          | succ depth =>
              rw [unclosed?_closer differ, ih]
              simp only [List.count_cons_self, List.count_cons_of_ne differ.symm, List.count_nil,
                Nat.zero_le, true_and]
              refine and_congr (by omega) (forall₂_congr fun front _ => by omega)
        · rw [unclosed?_other opens closes, ih]
          simp only [List.count_cons_of_ne opens, List.count_cons_of_ne closes, List.count_nil,
            Nat.zero_le, true_and]

theorem unclosed?_deeper (differ : opener ≠ closer) {depth left : Nat} {list : List α}
    (found : unclosed? opener closer depth list = some left) (more : Nat) :
    unclosed? opener closer (depth + more) list = some (left + more) := by
  rw [unclosed?_eq_some differ] at found ⊢
  obtain ⟨counts, bounded⟩ := found
  refine ⟨by omega, fun front inside => ?_⟩
  have bound := bounded front inside
  omega

theorem unclosed?_of_not_mem {depth : Nat} {list : List α} (absent : closer ∉ list) :
    unclosed? opener closer depth list = some (depth + list.count opener) := by
  induction list generalizing depth with
  | nil => rfl
  | cons a list ih =>
      obtain ⟨unclosed, later⟩ := List.ne_and_not_mem_of_not_mem_cons absent
      by_cases opens : a = opener
      · subst opens
        rw [unclosed?_opener, ih later, List.count_cons_self]
        congr 1
        omega
      · rw [unclosed?_other opens unclosed.symm, ih later, List.count_cons_of_ne opens]

end

namespace Text

variable {text front inside rest : Text}

def Unbraced (text : Text) : Prop := ∀ c ∈ text, c ≠ '{' ∧ c ≠ '}'

instance (text : Text) : Decidable (Unbraced text) := List.decidableBAll _ text

theorem Unbraced.append (first : Unbraced front) (second : Unbraced rest) :
    Unbraced (front ++ rest) := fun c member =>
  (List.mem_append.mp member).elim (first c) (second c)

theorem Unbraced.of_subset (free : Unbraced text) (kept : rest ⊆ text) : Unbraced rest :=
  fun c member => free c (kept member)

theorem Unbraced.of_blank (blank : Blank text) : Unbraced text := by
  intro c member
  have isBlank := blank c member
  constructor <;> rintro rfl <;> exact absurd isBlank (by decide)

theorem Unbraced.of_isName (named : ∀ c ∈ text, isName c = true) : Unbraced text := by
  intro c member
  have isName := named c member
  constructor <;> rintro rfl <;> exact absurd isName (by decide +kernel)

/-- As many braces are opened as are closed, and up to no point are more closed than opened. -/
structure Balanced (text : Text) : Prop where
  closed : text.count '{' = text.count '}'
  opened : ∀ front, front <+: text → front.count '}' ≤ front.count '{'

theorem braces_differ : '{' ≠ '}' := by decide

theorem balanced_iff : text.Balanced ↔ unclosed? '{' '}' 0 text = some 0 := by
  rw [unclosed?_eq_some braces_differ, Nat.zero_add, Nat.zero_add]
  constructor
  · rintro ⟨closed, opened⟩
    exact ⟨closed.symm, fun front inside => by simpa using opened front inside⟩
  · rintro ⟨closed, opened⟩
    exact ⟨closed.symm, fun front inside => by simpa using opened front inside⟩

instance (text : Text) : Decidable text.Balanced := decidable_of_iff _ balanced_iff.symm

/-- A balanced text leaves as many braces open as there were before it. -/
theorem Balanced.unclosed? (balanced : text.Balanced) (depth : Nat) :
    unclosed? '{' '}' depth text = some depth := by
  rw [unclosed?_eq_some braces_differ]
  refine ⟨by rw [balanced.closed], fun front inside => ?_⟩
  exact (balanced.opened front inside).trans (Nat.le_add_left _ _)

theorem Balanced.unclosed?_append (balanced : inside.Balanced) (depth : Nat) (rest : Text) :
    Flatsheet.unclosed? '{' '}' depth (inside ++ rest) =
      Flatsheet.unclosed? '{' '}' depth rest := by
  rw [Flatsheet.unclosed?_append, balanced.unclosed?, Option.bind_some]

/-- A balanced text may be put in, or taken out, anywhere. -/
theorem Balanced.insert_iff (balanced : inside.Balanced) :
    (front ++ (inside ++ rest)).Balanced ↔ (front ++ rest).Balanced := by
  rw [balanced_iff, balanced_iff, Flatsheet.unclosed?_append, Flatsheet.unclosed?_append]
  simp only [balanced.unclosed?_append]

theorem Balanced.nil : Balanced [] := by decide

theorem Balanced.append (first : front.Balanced) (second : rest.Balanced) :
    (front ++ rest).Balanced := by
  rw [balanced_iff, first.unclosed?_append]
  exact balanced_iff.mp second

theorem Unbraced.balanced (free : Unbraced text) : text.Balanced := by
  rw [balanced_iff]
  induction text with
  | nil => rfl
  | cons c text ih =>
      obtain ⟨⟨unopened, unclosed⟩, later⟩ := List.forall_mem_cons.mp free
      rw [unclosed?_other unopened unclosed]
      exact ih later

/-- After a part of a balanced text, the rest of it closes what is open by then. -/
theorem Balanced.closes (balanced : (front ++ rest).Balanced) :
    ∃ depth, Flatsheet.unclosed? '{' '}' depth rest = some 0 := by
  rw [balanced_iff, Flatsheet.unclosed?_append, Option.bind_eq_some_iff] at balanced
  obtain ⟨depth, _, closes⟩ := balanced
  exact ⟨depth, closes⟩

theorem Balanced.braced (balanced : inside.Balanced) : Balanced ('{' :: (inside ++ ['}'])) := by
  rw [balanced_iff, unclosed?_opener, balanced.unclosed?_append, unclosed?_closer braces_differ]
  rfl

/-- No text is balanced that goes on with a closing brace after a balanced one. -/
theorem Balanced.not_closed (balanced : inside.Balanced) (rest : Text) :
    ¬(inside ++ '}' :: rest).Balanced := by
  rw [balanced_iff, balanced.unclosed?_append, unclosed?_closer_zero braces_differ]
  exact (Option.some_ne_none 0).symm

/-- There is one balanced text at most that the brace after it closes. Of two that start alike, the
longer would close a brace that it has not opened. -/
theorem Balanced.eq_of_closed {other after : Text} (balanced : inside.Balanced)
    (closed : other.Balanced) (split : inside ++ '}' :: rest = other ++ '}' :: after) :
    inside = other ∧ rest = after := by
  rcases List.append_eq_append_iff.mp split with ⟨more, longer, ends⟩ | ⟨more, longer, ends⟩
  · cases more with
    | nil => simpa [eq_comm] using And.intro longer ends
    | cons c more =>
        obtain ⟨rfl, _⟩ := List.cons.inj ends
        exact absurd (longer ▸ closed) (balanced.not_closed more)
  · cases more with
    | nil => simpa [eq_comm] using And.intro longer ends
    | cons c more =>
        obtain ⟨rfl, _⟩ := List.cons.inj ends
        exact absurd (longer ▸ balanced) (closed.not_closed more)

/-- However many braces are open before them, the two texts leave as many open. -/
def SameDepth (one two : Text) : Prop :=
  ∀ depth, Flatsheet.unclosed? '{' '}' depth one = Flatsheet.unclosed? '{' '}' depth two

namespace SameDepth

variable {one two three : Text}

theorem refl (text : Text) : SameDepth text text := fun _ => rfl

theorem trans (first : SameDepth one two) (second : SameDepth two three) : SameDepth one three :=
  fun depth => (first depth).trans (second depth)

theorem append (fronts : SameDepth one two) (rests : SameDepth front rest) :
    SameDepth (one ++ front) (two ++ rest) := by
  intro depth
  rw [Flatsheet.unclosed?_append, Flatsheet.unclosed?_append, fronts depth]
  simp only [rests _]

theorem of_balanced (first : one.Balanced) (second : two.Balanced) : SameDepth one two :=
  fun depth => (first.unclosed? depth).trans (second.unclosed? depth).symm

theorem balanced_iff (same : SameDepth one two) : one.Balanced ↔ two.Balanced := by
  rw [Text.balanced_iff, Text.balanced_iff, same 0]

/-- Braces around a text may be left out, also where the last one closes another than the first. -/
theorem braced (unclosed : '}' ∉ inside) : SameDepth ('{' :: (inside ++ ['}'])) inside := by
  intro depth
  rw [unclosed?_opener, Flatsheet.unclosed?_append, unclosed?_of_not_mem unclosed,
    unclosed?_of_not_mem unclosed, Option.bind_some, Nat.add_right_comm,
    unclosed?_closer braces_differ]
  rfl

end SameDepth

end Text

namespace Block

open Text (braces_differ)

/-- Where a block ends inside which `depth` further braces are open: after the brace before which
they are all closed, or nowhere if no closing brace is left over. -/
theorem scan_braces (text : Text) (depth position : Nat) :
    (∃ before after, text = before ++ '}' :: after ∧ unclosed? '{' '}' depth before = some 0 ∧
      scan ['{'] ['}'] 0 (depth + 1) position (suffixes text) =
        some (position + before.length + 1)) ∨
    (∃ left, unclosed? '{' '}' depth text = some left) ∧
      scan ['{'] ['}'] 0 (depth + 1) position (suffixes text) = none := by
  induction text generalizing depth position with
  | nil => exact .inr ⟨⟨depth, rfl⟩, rfl⟩
  | cons c text ih =>
      have later (next : Nat)
          (read : scan ['{'] ['}'] 0 (depth + 1) position (suffixes (c :: text)) =
            scan ['{'] ['}'] 0 (next + 1) (position + 1) (suffixes text))
          (follows : ∀ rest, unclosed? '{' '}' depth (c :: rest) = unclosed? '{' '}' next rest) :
          (∃ before after, c :: text = before ++ '}' :: after ∧
            unclosed? '{' '}' depth before = some 0 ∧
            scan ['{'] ['}'] 0 (depth + 1) position (suffixes (c :: text)) =
              some (position + before.length + 1)) ∨
          (∃ left, unclosed? '{' '}' depth (c :: text) = some left) ∧
            scan ['{'] ['}'] 0 (depth + 1) position (suffixes (c :: text)) = none := by
        rw [read, follows]
        rcases ih next (position + 1) with ⟨before, after, split, closed, found⟩ | missed
        · refine .inl ⟨c :: before, after, by rw [split]; rfl, by rw [follows, closed], ?_⟩
          rw [found, List.length_cons]
          congr 1
          omega
        · exact .inr missed
      by_cases opens : c = '{'
      · subst opens
        refine later (depth + 1) ?_ (unclosed?_opener depth)
        simp [suffixes, scan, Text.startsWith, Text.dropPrefix?]
      · by_cases closes : c = '}'
        · subst closes
          cases depth with
          | zero =>
              refine .inl ⟨[], text, rfl, rfl, ?_⟩
              simp [suffixes, scan, Text.startsWith, Text.dropPrefix?]
          | succ depth =>
              refine later depth ?_ (unclosed?_closer braces_differ depth)
              have deeper : ¬(depth : Int) + 1 + 1 = 1 := by omega
              simp [suffixes, scan, Text.startsWith, Text.dropPrefix?, deeper]
        · refine later depth ?_ (unclosed?_other opens closes depth)
          simp [suffixes, scan, Text.startsWith, Text.dropPrefix?, Ne.symm opens, Ne.symm closes]

/-- A block ends with the brace after the balanced text at its start. The block of a text that leaves
no closing brace over is not closed. -/
theorem size?_cases (text : Text) :
    (∃ inside rest, text = inside ++ '}' :: rest ∧ inside.Balanced ∧
      size? ['{'] ['}'] ('{' :: text) = some (inside.length + 2)) ∨
    (∃ left, unclosed? '{' '}' 0 text = some left) ∧ size? ['{'] ['}'] ('{' :: text) = none := by
  have opened : size? ['{'] ['}'] ('{' :: text) = scan ['{'] ['}'] 0 1 1 (suffixes text) := by
    simp [size?, suffixes, scan, Text.startsWith, Text.dropPrefix?]
  rcases scan_braces text 0 1 with ⟨inside, rest, split, closed, found⟩ | ⟨left, missed⟩
  · refine .inl ⟨inside, rest, split, Text.balanced_iff.mpr closed, opened.trans (found.trans ?_)⟩
    congr 1
    omega
  · exact .inr ⟨left, opened.trans missed⟩

theorem size?_of_balanced {inside : Text} (balanced : inside.Balanced) (rest : Text) :
    size? ['{'] ['}'] ('{' :: (inside ++ '}' :: rest)) = some (inside.length + 2) := by
  rcases size?_cases (inside ++ '}' :: rest) with ⟨other, after, split, closed, found⟩ |
      ⟨⟨left, unclosed⟩, _⟩
  · rw [found, (balanced.eq_of_closed closed split).1]
  · rw [balanced.unclosed?_append, unclosed?_closer_zero braces_differ] at unclosed
    cases unclosed

theorem body_of_balanced {inside : Text} (balanced : inside.Balanced) (rest : Text) :
    body (inside ++ '}' :: rest) = (inside, rest) := by
  have outer : inside.length + 2 - 1 = (inside ++ ['}']).length := by simp
  rw [body, size?_of_balanced balanced]
  refine Prod.ext ?_ ?_
  · exact List.take_left
  · dsimp only
    rw [outer, show inside ++ '}' :: rest = inside ++ ['}'] ++ rest by simp, List.drop_left]

/-- A body is the balanced text before the brace that closes the block. The block of a text that
leaves no closing brace over is not closed. -/
theorem body_cases (text : Text) :
    (∃ inside rest, text = inside ++ '}' :: rest ∧ inside.Balanced ∧ body text = (inside, rest)) ∨
    (∃ left, unclosed? '{' '}' 0 text = some left) ∧ body text = (text, []) := by
  rcases size?_cases text with ⟨inside, rest, split, balanced, _⟩ | ⟨left, missed⟩
  · refine .inl ⟨inside, rest, split, balanced, ?_⟩
    rw [split, body_of_balanced balanced]
  · refine .inr ⟨left, ?_⟩
    rw [body, missed]

/-- A block is closed if the text closes the braces around it. -/
theorem body_closed {text inside rest : Text} {depth : Nat} (found : body text = (inside, rest))
    (closes : unclosed? '{' '}' (depth + 1) text = some 0) :
    text = inside ++ '}' :: rest ∧ inside.Balanced := by
  rcases body_cases text with ⟨other, after, split, balanced, same⟩ | ⟨⟨left, unclosed⟩, _⟩
  · obtain ⟨rfl, rfl⟩ : inside = other ∧ rest = after := Prod.mk.inj (found.symm.trans same)
    exact ⟨split, balanced⟩
  · have deeper := unclosed?_deeper braces_differ unclosed (depth + 1)
    rw [Nat.zero_add, closes] at deeper
    exact absurd (Option.some.inj deeper) (by omega)

/-- What a block covers is balanced together with what comes before it. -/
theorem covered_balanced {front inside content source rest : Text} {depth : Nat}
    (free : front.Unbraced) (found : body inside = (content, rest))
    (split : source ++ rest = front ++ '{' :: inside)
    (closes : unclosed? '{' '}' depth (source ++ rest) = some 0) :
    source.Balanced ∧ content.Balanced := by
  rw [split, free.balanced.unclosed?_append, unclosed?_opener] at closes
  obtain ⟨rfl, balanced⟩ := body_closed found closes
  obtain rfl : source = front ++ '{' :: (content ++ ['}']) := by
    refine (List.append_left_inj rest).mp ?_
    simpa using split
  exact ⟨free.balanced.append balanced.braced, balanced⟩

end Block

end Flatsheet
