import Flatsheet.Proofs.Binding
import Flatsheet.Proofs.Headings

/-!
Binding as substitution. A body is cut into names and other characters, and each name that is bound
as a whole gives way to its value. No value is looked at again, so values may hold names. Where the
names of the parameters are variables, this is what the binding of arguments does.
-/

namespace Flatsheet.Binding

inductive Lexeme where
  | name (text : Text)
  /-- A character outside every name. -/
  | char (c : Char)

/-- Cuts a body into names and other characters. A name is a dollar that comes after no word
character, together with all name characters that follow it; `afterWord` says whether a word
character comes before the text. -/
def lexemes (afterWord : Bool) : Text → List Lexeme
  | [] => []
  | c :: text =>
      if c = '$' ∧ afterWord = false then
        .name (c :: text.takeWhile isName) ::
          lexemes ((text.takeWhile isName).getLast?.any isWord) (text.dropWhile isName)
      else .char c :: lexemes (isWord c) text
termination_by text => text.length
decreasing_by
  · exact Nat.lt_succ_of_le (List.dropWhile_sublist _).length_le
  · exact Nat.lt_succ_self _

/-- What stands in place of a part of the body. -/
def Lexeme.filled (value? : Text → Option Text) : Lexeme → Text
  | .name text => (value? text).getD text
  | .char c => [c]

/-- The body with every name replaced that has a value. -/
def substitute (value? : Text → Option Text) (body : Text) : Text :=
  (lexemes false body).flatMap (Lexeme.filled value?)

/-- The argument at the place of a parameter, or all arguments from there on if it is spread. -/
def argumentAt (arguments : List Text) (index : Nat) (parameter : Parameter) : Text :=
  if parameter.isSpread then Text.join ", " (arguments.drop index) else arguments[index]?.getD []

/-- The argument or else the default, whichever is not empty. -/
def given? (arguments : List Text) (index : Nat) (parameter : Parameter) : Option Text :=
  [argumentAt arguments index parameter, parameter.default.getD []].find? (· ≠ [])

/-- The value of the parameter at a place: what it is given, or else the value of the parameter
before it. -/
def valueAt (parameters : List Parameter) (arguments : List Text) : (index : Nat) → Text
  | 0 => (parameters[0]?.bind (given? arguments 0)).getD ['0']
  | index + 1 =>
      (parameters[index + 1]?.bind (given? arguments (index + 1))).getD
        (valueAt parameters arguments index)

/-- The value that comes before the one of a place. -/
def valueBefore (parameters : List Parameter) (arguments : List Text) : (index : Nat) → Text
  | 0 => ['0']
  | index + 1 => valueAt parameters arguments index

/-- The value of the last parameter that a name stands for. -/
def valueOf? (parameters : List Parameter) (arguments : List Text) (name : Text) : Option Text :=
  (parameters.zipIdx.reverse.find? fun entry => entry.1.placeholder = name).map fun entry =>
    valueAt parameters arguments entry.2

theorem valueAt_eq (parameters : List Parameter) (arguments : List Text) (index : Nat) :
    valueAt parameters arguments index =
      (parameters[index]?.bind (given? arguments index)).getD
        (valueBefore parameters arguments index) := by
  cases index <;> rfl

theorem firstGiven_eq (argument : Text) (default : Option Text) (previous : Text) :
    firstGiven argument default previous =
      ([argument, default.getD []].find? (· ≠ [])).getD previous := by
  unfold firstGiven
  by_cases given : argument = []
  · rcases default with _ | _ | ⟨c, value⟩ <;> simp [given]
  · simp [given]

/-- A step of binding gives a parameter the value of its place. -/
theorem firstGiven_eq_valueAt {parameters : List Parameter} {index : Nat} {parameter : Parameter}
    (placed : parameters[index]? = some parameter) (arguments : List Text) :
    firstGiven (if parameter.isSpread then Text.join ", " (arguments.drop index)
        else (arguments.drop index).headD []) parameter.default
        (valueBefore parameters arguments index) = valueAt parameters arguments index := by
  rw [valueAt_eq, placed, firstGiven_eq, List.headD_eq_head?_getD, List.head?_drop]
  rfl

/-- Binding the parameters from a place on: the last one of a name counts, and the binding so far
if there is none. -/
theorem get?_extend {parameters later : List Parameter} {index : Nat}
    (rest : parameters.drop index = later) (arguments : List Text) (binding : Binding)
    (name : Text) :
    (extend binding (valueBefore parameters arguments index) later
        (arguments.drop index)).get? name =
      (((later.zipIdx index).reverse.find? fun entry => entry.1.placeholder = name).map
        fun entry => valueAt parameters arguments entry.2).or (binding.get? name) := by
  induction later generalizing index binding with
  | nil => rfl
  | cons parameter later ih =>
      have placed : parameters[index]? = some parameter := by
        rw [← List.head?_drop, rest, List.head?_cons]
      have next : parameters.drop (index + 1) = later := by
        rw [← List.tail_drop, rest, List.tail_cons]
      rw [extend]
      simp only [firstGiven_eq_valueAt placed, List.tail_drop]
      rw [show valueAt parameters arguments index =
        valueBefore parameters arguments (index + 1) from rfl, ih next, Table.get?_insert,
        List.zipIdx_cons, List.reverse_cons, List.find?_append, List.find?_singleton]
      cases List.find? (fun entry => decide (entry.1.placeholder = name))
          (later.zipIdx (index + 1)).reverse with
      | some entry => rfl
      | none =>
          by_cases same : parameter.placeholder = name
          · simp [same, valueBefore]
          · simp [same]

theorem get?_ofArguments (parameters : List Parameter) (arguments : List Text) (name : Text) :
    (ofArguments parameters arguments).get? name = valueOf? parameters arguments name := by
  have bound := @get?_extend parameters parameters 0 rfl arguments Table.empty name
  exact bound.trans Option.or_none

/-- Every name is a dollar with name characters after it. -/
def Dollared (binding : Binding) : Prop :=
  ∀ entry ∈ binding.entries, ∃ name, Mixin.Name name ∧ entry.1 = '$' :: name

variable {binding : Binding}

theorem isName_dollar : isName '$' = false := by decide +kernel

theorem isWord_dollar : isWord '$' = false := by decide +kernel

theorem standsAt_of_split {name rest : Text} (ended : ∀ c ∈ rest.head?, isName c = false) :
    standsAt (name ++ rest) name = true := by
  rw [standsAt, Text.dropPrefix?_eq_some.mpr rfl]
  cases rest with
  | nil => rfl
  | cons c rest => simp [ended c rfl]

/-- A variable stands at a dollar if it is the whole name there. -/
theorem standsAt_dollar {name text : Text} (named : ∀ c ∈ name, isName c = true) :
    standsAt ('$' :: text) ('$' :: name) = true ↔ name = text.takeWhile isName := by
  constructor
  · intro stands
    obtain ⟨rest, split, ended⟩ := split_of_standsAt stands
    obtain rfl : text = name ++ rest := (List.cons.inj split).2
    exact (Text.span_append named ended).1.symm
  · rintro rfl
    have stands := @standsAt_of_split ('$' :: text.takeWhile isName) _
      (Text.head?_dropWhile_fails isName text)
    rwa [List.cons_append, List.takeWhile_append_dropWhile] at stands

/-- Of names that are equally long, the first is kept. -/
theorem foldl_longer_same {size : Nat} {best : Option (Text × Text)} {entries : List (Text × Text)}
    (first : ∀ entry ∈ best, entry.1.length = size)
    (same : ∀ entry ∈ entries, entry.1.length = size) :
    entries.foldl longer best = best.or entries.head? := by
  induction entries generalizing best with
  | nil => exact Option.or_none.symm
  | cons entry entries ih =>
      obtain ⟨here, later⟩ := List.forall_mem_cons.mp same
      rw [List.foldl_cons]
      cases best with
      | none => exact ih (by simpa [longer] using here) later
      | some other =>
          have kept : longer (some other) entry = some other := by
            rw [longer, if_neg]
            have := first other rfl
            omega
          rw [kept, ih first later]
          rfl

/-- At a dollar, the name that is replaced is the whole one. -/
theorem Dollared.nameAt?_dollar (dollared : binding.Dollared) (text : Text) :
    binding.nameAt? ('$' :: text) = (binding.get? ('$' :: text.takeWhile isName)).map
      ('$' :: text.takeWhile isName, ·) := by
  have whole : binding.entries.filter (fun entry => standsAt ('$' :: text) entry.1) =
      binding.entries.filter fun entry => entry.1 = '$' :: text.takeWhile isName := by
    refine List.filter_congr fun entry member => ?_
    obtain ⟨name, named, shape⟩ := dollared entry member
    rw [shape, Bool.eq_iff_iff, standsAt_dollar named.2]
    simp
  have equal : ∀ entry ∈ binding.entries.filter fun entry =>
      entry.1 = '$' :: text.takeWhile isName,
      entry.1.length = ('$' :: text.takeWhile isName).length := by
    intro entry listed
    rw [of_decide_eq_true (List.mem_filter.mp listed).2]
  rw [nameAt?, whole, foldl_longer_same (by simp) equal, Option.none_or, List.head?_filter,
    Table.get?, Option.map_map]
  cases found : binding.entries.find? fun entry => entry.1 = '$' :: text.takeWhile isName with
  | none => rfl
  | some entry =>
      have name : entry.1 = '$' :: text.takeWhile isName := by simpa using List.find?_some found
      exact congrArg some (Prod.ext name rfl)

theorem Dollared.nameAt?_of_ne (dollared : binding.Dollared) {text : Text}
    (other : text.head? ≠ some '$') : binding.nameAt? text = none := by
  rw [Option.eq_none_iff_forall_ne_some]
  intro entry found
  obtain ⟨member, stands⟩ := nameAt?_eq_some found
  obtain ⟨name, _, shape⟩ := dollared entry member
  obtain ⟨rest, rfl, _⟩ := split_of_standsAt stands
  rw [shape] at other
  exact other rfl

theorem endsInWord_false (text : Text) : endsInWord false text = text.getLast?.any isWord := by
  rcases List.eq_nil_or_concat text with rfl | ⟨front, c, rfl⟩
  · rfl
  · simp [endsInWord]

theorem Dollared.applyFrom_run (dollared : binding.Dollared) {run : Text} (plain : '$' ∉ run)
    (afterWord : Bool) (rest : Text) :
    binding.applyFrom afterWord 0 (run ++ rest) =
      run ++ binding.applyFrom (endsInWord afterWord run) 0 rest := by
  induction run generalizing afterWord with
  | nil => rfl
  | cons c run ih =>
      obtain ⟨other, later⟩ : c ≠ '$' ∧ '$' ∉ run := by simpa [eq_comm] using plain
      have missed : binding.nameAt? (c :: (run ++ rest)) = none :=
        dollared.nameAt?_of_ne (by simpa using other)
      rw [List.cons_append, applyFrom, missed, ite_self]
      exact congrArg (c :: ·) (ih later (isWord c))

theorem Dollared.applyFrom_eq (dollared : binding.Dollared) (afterWord : Bool) (text : Text) :
    binding.applyFrom afterWord 0 text =
      (lexemes afterWord text).flatMap (Lexeme.filled binding.get?) := by
  fun_induction lexemes afterWord text with
  | case1 afterWord =>
      rw [applyFrom, dollared.nameAt?_of_ne (by simp), ite_self]
      rfl
  | case2 afterWord c text dollar ih =>
      obtain ⟨rfl, rfl⟩ := dollar
      have parts : text.takeWhile isName ++ text.dropWhile isName = text :=
        List.takeWhile_append_dropWhile
      rw [List.flatMap_cons, ← ih, ← endsInWord_false]
      cases value : binding.get? ('$' :: text.takeWhile isName) with
      | some given =>
          have found : binding.nameAt? ('$' :: text) =
              some ('$' :: text.takeWhile isName, given) := by
            rw [dollared.nameAt?_dollar, value]
            rfl
          have covered := applyFrom_covered binding false (text.takeWhile isName)
            (text.dropWhile isName)
          rw [parts] at covered
          simp only [applyFrom, found, Bool.false_eq_true, if_false, isWord_dollar, covered,
            Lexeme.filled, value, Option.getD_some]
      | none =>
          have missed : binding.nameAt? ('$' :: text) = none := by
            rw [dollared.nameAt?_dollar, value]
            rfl
          have plain : '$' ∉ text.takeWhile isName := by
            intro member
            have named := List.mem_takeWhile_imp member
            rw [isName_dollar] at named
            cases named
          have copied := dollared.applyFrom_run plain false (text.dropWhile isName)
          rw [parts] at copied
          simp only [applyFrom, missed, Lexeme.filled, value, isWord_dollar, copied]
          rfl
  | case3 afterWord c text other ih =>
      have missed : (if afterWord then none else binding.nameAt? (c :: text)) = none := by
        cases afterWord with
        | true => rfl
        | false => exact dollared.nameAt?_of_ne (by simpa using other)
      rw [applyFrom, missed, List.flatMap_cons, ← ih]
      rfl

theorem dollared_ofArguments {parameters : List Parameter}
    (named : ∀ parameter ∈ parameters, ∃ name,
      Mixin.Name name ∧ parameter.placeholder = '$' :: name) (arguments : List Text) :
    (ofArguments parameters arguments).Dollared := by
  intro entry member
  obtain ⟨⟨parameter, listed, same⟩, _⟩ := @mem_ofArguments (fun _ => True) parameters arguments
    entry trivial (by simp) (by simp) (by simp) member
  rw [same]
  exact named parameter listed

/-- If every parameter stands in the body as a dollar with a name, then binding arguments replaces
the whole names that are parameters by their values, all at once. -/
theorem bindArguments_eq_substitute {parameters : List Parameter}
    (named : ∀ parameter ∈ parameters, ∃ name,
      Mixin.Name name ∧ parameter.placeholder = '$' :: name)
    (body : Text) (arguments : List Text) :
    bindArguments body parameters arguments = substitute (valueOf? parameters arguments) body := by
  have values : (ofArguments parameters arguments).get? = valueOf? parameters arguments :=
    funext (get?_ofArguments parameters arguments)
  rw [bindArguments, apply, (dollared_ofArguments named arguments).applyFrom_eq, values, substitute]

/-- Names that begin alike or stand side by side, an argument that is the name of a parameter, a
default, a value carried on, a spread parameter and one that comes twice. -/
theorem bindArguments_eq_substitute_alike :
    let parameters : List Parameter := [⟨"$a", none⟩, ⟨"$ab", some "2px"⟩, ⟨"$d", none⟩,
      ⟨"$c", none⟩, ⟨"$rest...", none⟩, ⟨"$c", none⟩]
    let arguments : List Text := ["$ab", "", "", "x", "y", "z"]
    let body : Text := "$a $ab-$a x$a $a$ab $abc -$c $d $rest;"
    (∀ parameter ∈ parameters, ∃ name,
      Mixin.Name name ∧ parameter.placeholder = '$' :: name) ∧
      substitute (valueOf? parameters arguments) body =
        "$ab $ab-$ab x$a $ab$ab $abc -z 2px y, z;".toList := by
  intro parameters arguments body
  have named : ∀ parameter ∈ parameters, ∃ name,
      Mixin.Name name ∧ parameter.placeholder = '$' :: name := by
    have tails : ∀ parameter ∈ parameters,
        Mixin.Name parameter.placeholder.tail ∧ parameter.placeholder.head? = some '$' := by
      decide +kernel
    exact fun parameter listed => ⟨_, (tails parameter listed).1,
      List.eq_cons_of_mem_head? (tails parameter listed).2⟩
  exact ⟨named, (bindArguments_eq_substitute named body arguments).symm.trans (by decide +kernel)⟩

end Flatsheet.Binding
