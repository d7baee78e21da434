import Flatsheet.Proofs.Balance

/-!
Where a block ends. Positions count from the beginning of the text. From an opening brace on, the
scan of a text stops after the first characters that close as many braces as they open, and does not
stop if there are none such. So the text between the two braces is balanced, and blocks inside it
are whole.
-/

namespace Flatsheet.Block

/-- As many braces are closed as are opened, but not at any point on the way. -/
structure Complete (block : Text) : Prop where
  closed : block.count '{' = block.count '}'
  opened : ∀ front, front <+: block → front ≠ [] → front ≠ block →
    front.count '}' < front.count '{'

/-- What stands from `start` up to `stop` is a complete block, and something does stand there. -/
structure Spans (text : Text) (start stop : Nat) : Prop where
  forward : start < stop
  within : stop ≤ text.length
  complete : Complete (text.extract start stop)

theorem complete_braced {inside : Text} (balanced : inside.Balanced) :
    Complete ('{' :: (inside ++ ['}'])) := by
  refine ⟨balanced.braced.closed, fun front begins nonempty proper => ?_⟩
  obtain ⟨shorter, rfl, within⟩ : ∃ shorter, front = '{' :: shorter ∧ shorter <+: inside := by
    rcases List.prefix_cons_iff.mp begins with empty | ⟨shorter, split, longer⟩
    · exact absurd empty nonempty
    · rcases List.prefix_concat_iff.mp longer with whole | within
      · exact absurd (by rw [split, whole]) proper
      · exact ⟨shorter, split, within⟩
  have bound := balanced.opened shorter within
  rw [List.count_cons_self, List.count_cons_of_ne (by decide)]
  omega

/-- The last character closes the brace in front, since no part of what is inside has more closers
than openers. -/
theorem Complete.braced {tail : Text} (complete : Complete ('{' :: tail)) :
    ∃ inside : Text, tail = inside ++ ['}'] ∧ inside.Balanced := by
  have closed := complete.closed
  rw [List.count_cons_self, List.count_cons_of_ne (by decide)] at closed
  rcases List.eq_nil_or_concat tail with rfl | ⟨inside, last, rfl⟩
  · cases closed
  rw [List.concat_eq_append] at complete closed ⊢
  have opened (front : Text) (begins : front <+: inside) :
      front.count '}' ≤ front.count '{' := by
    have longer : '{' :: front <+: '{' :: (inside ++ [last]) :=
      List.cons_prefix_cons.mpr ⟨rfl, begins.trans (List.prefix_append inside [last])⟩
    have short := begins.length_le
    have more := complete.opened ('{' :: front) longer (by simp) fun same => by
      have lengths := congrArg List.length same
      rw [List.length_cons, List.length_cons, List.length_append, List.length_singleton] at lengths
      omega
    rw [List.count_cons_self, List.count_cons_of_ne (by decide)] at more
    omega
  have whole := opened inside (List.prefix_refl inside)
  rw [List.count_append, List.count_append] at closed
  obtain rfl : last = '}' := by
    by_contra other
    have unclosed : [last].count '}' = 0 := by simp [other]
    omega
  exact ⟨inside, rfl, by simpa using closed, opened⟩

section

variable {text inside rest : Text} {start stop : Nat}

theorem drop_opening (opens : text[start]? = some '{') :
    text.drop start = '{' :: text.drop (start + 1) := by
  obtain ⟨inside, read⟩ := List.getElem?_eq_some_iff.mp opens
  rw [List.drop_eq_getElem_cons inside, read]

theorem extract_block (opens : text[start]? = some '{')
    (split : text.drop (start + 1) = inside ++ '}' :: rest) :
    text.extract start (start + inside.length + 2) = '{' :: (inside ++ ['}']) := by
  have parts : text.drop start = '{' :: (inside ++ ['}']) ++ rest := by
    rw [drop_opening opens, split]
    simp
  have size : ('{' :: (inside ++ ['}'])).length = start + inside.length + 2 - start := by
    rw [List.length_cons, List.length_append, List.length_singleton]
    omega
  rw [List.extract_eq_take_drop, parts, List.take_left' size]

theorem extract_inside (split : text.drop (start + 1) = inside ++ '}' :: rest) :
    text.extract (start + 1) (start + inside.length + 2 - 1) = inside := by
  rw [List.extract_eq_take_drop, split, List.take_left' (by omega)]

theorem drop_block (split : text.drop (start + 1) = inside ++ '}' :: rest) :
    text.drop (start + inside.length + 2) = rest := by
  have later : start + inside.length + 2 = start + 1 + (inside ++ ['}']).length := by
    rw [List.length_append, List.length_singleton]
    omega
  have parts : inside ++ '}' :: rest = inside ++ ['}'] ++ rest := by simp
  rw [later, ← List.drop_drop, split, parts, List.drop_left]

theorem spans_iff (opens : text[start]? = some '{') :
    Spans text start stop ↔ ∃ inside rest : Text, text.drop (start + 1) = inside ++ '}' :: rest ∧
      inside.Balanced ∧ stop = start + inside.length + 2 := by
  constructor
  · rintro ⟨forward, within, complete⟩
    obtain ⟨size, rfl⟩ : ∃ size, stop = start + 1 + size := ⟨stop - (start + 1), by omega⟩
    have cut : text.extract start (start + 1 + size) =
        '{' :: (text.drop (start + 1)).take size := by
      rw [List.extract_eq_take_drop, drop_opening opens,
        show start + 1 + size - start = size + 1 by omega, List.take_succ_cons]
    rw [cut] at complete
    obtain ⟨inside, taken, balanced⟩ := complete.braced
    refine ⟨inside, (text.drop (start + 1)).drop size, ?_, balanced, ?_⟩
    · rw [← List.singleton_append, ← List.append_assoc, ← taken, List.take_append_drop]
    · have lengths := congrArg List.length taken
      rw [List.length_take, List.length_drop, List.length_append, List.length_singleton] at lengths
      omega
  · rintro ⟨inside, rest, split, balanced, rfl⟩
    refine ⟨by omega, ?_, ?_⟩
    · have lengths := congrArg List.length split
      rw [List.length_drop, List.length_append, List.length_cons] at lengths
      omega
    · rw [extract_block opens split]
      exact complete_braced balanced

theorem viewsFrom_natCast (text : Text) (start : Nat) :
    viewsFrom text start = suffixes (text.drop start) := by
  simp [viewsFrom]

theorem endFrom_of_size? {opener closer : Text} {size : Nat}
    (sized : size? opener closer (text.drop start) = some size) :
    endFrom opener closer text start = (start + size : Nat) := by
  rw [endFrom, viewsFrom_natCast, show scan opener closer 0 0 0 _ = some size from sized]
  exact (Int.natCast_add start size).symm

theorem endFrom_of_size?_eq_none {opener closer : Text}
    (endless : size? opener closer (text.drop start) = none) :
    endFrom opener closer text start = -1 := by
  rw [endFrom, viewsFrom_natCast, show scan opener closer 0 0 0 _ = none from endless]

theorem endFrom_of_spans (opens : text[start]? = some '{') (spans : Spans text start stop) :
    endFrom ['{'] ['}'] text start = stop := by
  obtain ⟨inside, rest, split, balanced, rfl⟩ := (spans_iff opens).mp spans
  rw [Nat.add_assoc]
  apply endFrom_of_size?
  rw [drop_opening opens, split, size?_of_balanced balanced]

/-- The scan gives up only where no block starts. -/
theorem endFrom_cases (opens : text[start]? = some '{') :
    (∃ stop, Spans text start stop) ∨ endFrom ['{'] ['}'] text start = -1 := by
  rcases size?_cases (text.drop (start + 1)) with ⟨inside, rest, split, balanced, _⟩ | ⟨_, missed⟩
  · exact .inl ⟨_, (spans_iff opens).mpr ⟨inside, rest, split, balanced, rfl⟩⟩
  · exact .inr (endFrom_of_size?_eq_none (by rw [drop_opening opens, missed]))

theorem endFrom_eq_iff (opens : text[start]? = some '{') :
    endFrom ['{'] ['}'] text start = stop ↔ Spans text start stop := by
  refine ⟨fun ends => ?_, endFrom_of_spans opens⟩
  rcases endFrom_cases opens with ⟨other, spans⟩ | endless
  · have same := ends.symm.trans (endFrom_of_spans opens spans)
    rwa [Int.ofNat_inj.mp same]
  · omega

theorem endFrom_eq_neg_one_iff (opens : text[start]? = some '{') :
    endFrom ['{'] ['}'] text start = -1 ↔ ∀ stop, ¬Spans text start stop := by
  constructor
  · intro endless stop spans
    have ends := endFrom_of_spans opens spans
    omega
  · intro unspanned
    rcases endFrom_cases opens with ⟨stop, spans⟩ | endless
    · exact absurd spans (unspanned stop)
    · exact endless

theorem Spans.body_eq (opens : text[start]? = some '{') (spans : Spans text start stop) :
    text.extract start stop = '{' :: (text.extract (start + 1) (stop - 1) ++ ['}']) ∧
      Text.Balanced (text.extract (start + 1) (stop - 1)) ∧
      body (text.drop (start + 1)) = (text.extract (start + 1) (stop - 1), text.drop stop) := by
  obtain ⟨inside, rest, split, balanced, rfl⟩ := (spans_iff opens).mp spans
  rw [extract_inside split, drop_block split]
  exact ⟨extract_block opens split, balanced, by rw [split, body_of_balanced balanced]⟩

/-- Blocks are matched exactly. From an opening brace on, the end that is found is where the text
has closed as many braces as it has opened, for the first time; and -1 stands for no such end. So
what stands between the two braces is balanced, and it is the body that is read there. -/
theorem endFrom_exact (opens : text[start]? = some '{') :
    (∀ stop : Nat, endFrom ['{'] ['}'] text start = stop ↔ Spans text start stop) ∧
    (endFrom ['{'] ['}'] text start = -1 ↔ ∀ stop, ¬Spans text start stop) ∧
    ∀ stop : Nat, endFrom ['{'] ['}'] text start = stop →
      text.extract start stop = '{' :: (text.extract (start + 1) (stop - 1) ++ ['}']) ∧
        Text.Balanced (text.extract (start + 1) (stop - 1)) ∧
        body (text.drop (start + 1)) = (text.extract (start + 1) (stop - 1), text.drop stop) := by
  refine ⟨fun stop => endFrom_eq_iff opens, endFrom_eq_neg_one_iff opens, fun stop ends => ?_⟩
  exact ((endFrom_eq_iff opens).mp ends).body_eq opens

/-- A block with another inside and another behind it, which is left open. -/
theorem endFrom_exact_nested :
    let text : Text := "a\x7bb\x7bc\x7d;\x7d\x7bd\x7b\x7d"
    (text[1]? = some '{' ∧ endFrom ['{'] ['}'] text (1 : Nat) = (8 : Nat) ∧ Spans text 1 8 ∧
      text.extract 1 8 = '{' :: (text.extract 2 7 ++ ['}']) ∧
      Text.Balanced (text.extract 2 7) ∧
      body (text.drop 2) = (text.extract 2 7, text.drop 8)) ∧
    text[8]? = some '{' ∧ endFrom ['{'] ['}'] text (8 : Nat) = -1 ∧
      ∀ stop, ¬Spans text 8 stop := by
  intro text
  have first : text[1]? = some '{' := by decide
  have second : text[8]? = some '{' := by decide
  have ends : endFrom ['{'] ['}'] text (1 : Nat) = (8 : Nat) := by decide +kernel
  have endless : endFrom ['{'] ['}'] text (8 : Nat) = -1 := by decide +kernel
  obtain ⟨found, _, cut⟩ := endFrom_exact first
  obtain ⟨_, missed, _⟩ := endFrom_exact second
  exact ⟨⟨first, ends, (found 8).mp ends, cut 8 ends⟩, second, endless, missed.mp endless⟩

end

end Flatsheet.Block
