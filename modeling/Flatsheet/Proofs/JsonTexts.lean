import Mathlib.Data.List.Basic
import Flatsheet.Data.Json

/-!
Data that is written as JSON reads back. A character is written as itself, by a short escape, by its
UTF-16 unit or by two of them, and each of the four is read as that character. Only the printable
characters of ASCII are written.
-/

namespace Flatsheet.Json

theorem hexValue?_digitChar : ∀ digit < 16, hexValue? (Nat.digitChar digit) = some digit := by
  decide

theorem hex_succ {width : Nat} (positive : 0 < width) (n : Nat) :
    Text.hex (width + 1) n = Text.hex width (n / 16) ++ [Nat.digitChar (n % 16)] := by
  unfold Text.hex
  by_cases less : n < 16
  · have padded : List.replicate width '0' = List.replicate (width - 1) '0' ++ ['0'] := by
      rw [← List.replicate_succ', Nat.sub_add_cancel positive]
    rw [Nat.toDigits_of_lt_base less, Nat.div_eq_of_lt less, Nat.mod_eq_of_lt less]
    exact congrArg (· ++ [Nat.digitChar n]) padded
  · rw [Nat.toDigits_of_base_le (by decide) (by omega)]
    simp only [List.length_append, List.length_singleton, Nat.add_sub_add_right, List.append_assoc]

theorem hex_four {unit : Nat} (bound : unit < 0x10000) :
    Text.hex 4 unit = [Nat.digitChar (unit / 16 / 16 / 16), Nat.digitChar (unit / 16 / 16 % 16),
      Nat.digitChar (unit / 16 % 16), Nat.digitChar (unit % 16)] := by
  have first : Text.hex 1 (unit / 16 / 16 / 16) = [Nat.digitChar (unit / 16 / 16 / 16)] := by
    rw [Text.hex, Nat.toDigits_of_lt_base (by omega)]
    rfl
  rw [hex_succ (by decide), hex_succ (by decide), hex_succ (by decide), first]
  rfl

theorem unit?_hex {unit : Nat} (bound : unit < 0x10000) (rest : Text) :
    unit? (Text.hex 4 unit ++ rest) = some (unit, rest) := by
  have low (n : Nat) : hexValue? (Nat.digitChar (n % 16)) = some (n % 16) :=
    hexValue?_digitChar _ (Nat.mod_lt _ (by decide))
  have value : 4096 * (unit / 16 / 16 / 16) + 256 * (unit / 16 / 16 % 16) + 16 * (unit / 16 % 16) +
      unit % 16 = unit := by
    omega
  rw [hex_four bound]
  simp only [List.cons_append, List.nil_append, unit?, low,
    hexValue?_digitChar (unit / 16 / 16 / 16) (by omega), Option.bind_eq_bind, Option.bind_some,
    value]
  rfl

/-- No character is a surrogate. -/
theorem toNat_cases (c : Char) : c.toNat < 0xd800 ∨ 0xdfff < c.toNat ∧ c.toNat < 0x110000 :=
  c.valid

theorem unitChar?_unit {c : Char} (plane : c.toNat < 0x10000) (rest : Text) :
    unitChar? (Text.hex 4 c.toNat ++ rest) = some (c, rest) := by
  have scalar := toNat_cases c
  simp only [unitChar?, unit?_hex plane, Option.bind_eq_bind, Option.bind_some,
    if_neg (show ¬ (0xd800 ≤ c.toNat ∧ c.toNat < 0xdc00) by omega),
    if_neg (show ¬ (0xdc00 ≤ c.toNat ∧ c.toNat < 0xe000) by omega), Char.ofNat_toNat]
  rfl

theorem lowSurrogate?_escape {unit : Nat} (low : 0xdc00 ≤ unit ∧ unit < 0xe000) (rest : Text) :
    lowSurrogate? (unitEscape unit ++ rest) = some (unit, rest) := by
  have mark : Text.dropPrefix? "\\u" (unitEscape unit ++ rest) = some (Text.hex 4 unit ++ rest) :=
    rfl
  simp only [lowSurrogate?, mark, Option.bind_eq_bind, Option.bind_some,
    unit?_hex (show unit < 0x10000 by omega), if_pos low]
  rfl

/-- Two units stand for the character. -/
structure IsPair (high low : Nat) (c : Char) : Prop where
  leads : 0xd800 ≤ high ∧ high < 0xdc00
  trails : 0xdc00 ≤ low ∧ low < 0xe000
  sum : 0x10000 + (high - 0xd800) * 0x400 + (low - 0xdc00) = c.toNat

theorem isPair_surrogates {c : Char} (beyond : 0x10000 ≤ c.toNat) :
    IsPair (surrogates c.toNat).1 (surrogates c.toNat).2 c := by
  have scalar := toNat_cases c
  constructor <;> simp only [surrogates] <;> omega

theorem unitChar?_pair {high low : Nat} {c : Char} (pair : IsPair high low c) (rest : Text) :
    unitChar? (Text.hex 4 high ++ (unitEscape low ++ rest)) = some (c, rest) := by
  have bound := pair.leads.2
  simp only [unitChar?, unit?_hex (show high < 0x10000 by omega), Option.bind_eq_bind,
    Option.bind_some, if_pos pair.leads, lowSurrogate?_escape pair.trails, pair.sum,
    Char.ofNat_toNat]
  rfl

def isPrintable (c : Char) : Bool := 0x20 ≤ c.toNat && c.toNat < 0x7f

/-- The text is printable, and it is the character, which needs no escape, or an escape that is read
as the character. -/
structure Spells (text : Text) (c : Char) : Prop where
  printable : text.all isPrintable = true
  reads : text = [c] ∧ c ≠ '"' ∧ c ≠ '\\' ∧ ¬ c.toNat < 0x20 ∨
    ∃ escape, text = '\\' :: escape ∧ ∀ rest, escape? (escape ++ rest) = some (c, rest)

theorem Spells.short {mark c : Char} (printable : isPrintable mark = true)
    (reads : ∀ rest, escape? (mark :: rest) = some (c, rest)) : Spells ['\\', mark] c where
  printable := by simpa using ⟨rfl, printable⟩
  reads := .inr ⟨[mark], rfl, reads⟩

theorem escape?_unit (rest : Text) : escape? ('u' :: rest) = unitChar? rest := rfl

theorem printable_unitEscape {unit : Nat} (bound : unit < 0x10000) :
    (unitEscape unit).all isPrintable = true := by
  have digits : ∀ digit < 16, isPrintable (Nat.digitChar digit) = true := by decide
  have low (n : Nat) : isPrintable (Nat.digitChar (n % 16)) = true :=
    digits _ (Nat.mod_lt _ (by decide))
  have marks : isPrintable '\\' = true ∧ isPrintable 'u' = true := by decide
  rw [unitEscape, hex_four bound]
  simp only [List.all_cons, List.all_nil, marks, low, digits (unit / 16 / 16 / 16) (by omega),
    Bool.and_self]

theorem Spells.unit {c : Char} (plane : c.toNat < 0x10000) : Spells (unitEscape c.toNat) c where
  printable := printable_unitEscape plane
  reads := by
    refine .inr ⟨'u' :: Text.hex 4 c.toNat, rfl, fun rest => ?_⟩
    rw [List.cons_append, escape?_unit, unitChar?_unit plane]

theorem Spells.pair {high low : Nat} {c : Char} (pair : IsPair high low c) :
    Spells (unitEscape high ++ unitEscape low) c where
  printable := by
    have first := pair.leads.2
    have second := pair.trails.2
    rw [List.all_append, printable_unitEscape (by omega), printable_unitEscape (by omega)]
    rfl
  reads := by
    refine .inr ⟨'u' :: (Text.hex 4 high ++ unitEscape low), rfl, fun rest => ?_⟩
    rw [List.cons_append, List.append_assoc, escape?_unit, unitChar?_pair pair]

theorem spells_escapeChar (c : Char) : Spells (escapeChar c) c := by
  unfold escapeChar
  by_cases quote : c = '"'
  · rw [if_pos quote, quote]
    exact .short rfl fun _ => rfl
  rw [if_neg quote]
  by_cases backslash : c = '\\'
  · rw [if_pos backslash, backslash]
    exact .short rfl fun _ => rfl
  rw [if_neg backslash]
  by_cases newline : c = '\n'
  · rw [if_pos newline, newline]
    exact .short rfl fun _ => rfl
  rw [if_neg newline]
  by_cases carriage : c = '\r'
  · rw [if_pos carriage, carriage]
    exact .short rfl fun _ => rfl
  rw [if_neg carriage]
  by_cases tab : c = '\t'
  · rw [if_pos tab, tab]
    exact .short rfl fun _ => rfl
  rw [if_neg tab]
  by_cases backspace : c = '\x08'
  · rw [if_pos backspace, backspace]
    exact .short rfl fun _ => rfl
  rw [if_neg backspace]
  by_cases feed : c = '\x0c'
  · rw [if_pos feed, feed]
    exact .short rfl fun _ => rfl
  rw [if_neg feed]
  by_cases plain : 0x20 ≤ c.toNat ∧ c.toNat < 0x7f
  · rw [if_pos plain]
    refine ⟨?_, .inl ⟨rfl, quote, backslash, Nat.not_lt.mpr plain.1⟩⟩
    simpa [isPrintable] using plain
  rw [if_neg plain]
  by_cases plane : c.toNat < 0x10000
  · rw [if_pos plane]
    exact .unit plane
  · rw [if_neg plane]
    exact .pair (isPair_surrogates (Nat.not_lt.mp plane))

theorem content?_escapeChar (fuel : Nat) (c : Char) {rest content left : Text}
    (later : content? fuel rest = some (content, left)) :
    content? (fuel + 1) (escapeChar c ++ rest) = some (c :: content, left) := by
  rcases (spells_escapeChar c).reads with ⟨same, quote, backslash, plain⟩ | ⟨escape, same, reads⟩
  · rw [same, List.singleton_append, content?, if_neg quote, if_neg backslash, if_neg plain, later]
    rfl
  · rw [same, List.cons_append, content?, if_neg (by decide), if_pos rfl, reads]
    simp only [Option.bind_eq_bind, Option.bind_some, later]
    rfl

theorem content?_quoted {fuel : Nat} {content : Text} (enough : content.length < fuel)
    (rest : Text) :
    content? fuel (content.flatMap escapeChar ++ '"' :: rest) = some (content, rest) := by
  induction content generalizing fuel with
  | nil =>
      obtain ⟨fuel, rfl⟩ := Nat.exists_eq_add_one.mpr enough
      rfl
  | cons c content ih =>
      obtain ⟨fuel, rfl⟩ := Nat.exists_eq_add_one.mpr (Nat.zero_lt_of_lt enough)
      rw [List.flatMap_cons, List.append_assoc]
      exact content?_escapeChar fuel c (ih (Nat.lt_of_succ_lt_succ enough))

theorem length_le_flatMap_escapeChar (content : Text) :
    content.length ≤ (content.flatMap escapeChar).length := by
  induction content with
  | nil => exact Nat.le_refl 0
  | cons c content ih =>
      have positive : 0 < (escapeChar c).length := by
        rcases (spells_escapeChar c).reads with ⟨same, _⟩ | ⟨escape, same, _⟩ <;> simp [same]
      rw [List.flatMap_cons, List.length_append, List.length_cons]
      omega

theorem text?_quoted (content rest : Text) :
    text? (content.flatMap escapeChar ++ '"' :: rest) = some (content, rest) := by
  refine content?_quoted ?_ rest
  have := length_le_flatMap_escapeChar content
  rw [List.length_append]
  omega

/-- A tab, a letter of the first plane and a character beyond it. -/
example : quote ['\t', 'é', '😀'] = "\"\\t\\u00e9\\ud83d\\ude00\"".toList := by decide

/-- Texts, and lists and records of them. -/
inductive Textual : Data → Prop
  | text (content : Text) : Textual (.text content)
  | list {elements : List Data} (textual : ∀ element ∈ elements, Textual element) :
      Textual (.list elements)
  | record {fields : List (Text × Data)} (textual : ∀ field ∈ fields, Textual field.2) :
      Textual (.record fields)

/-- The written form is read as the data, whatever follows it. Each step of the reading takes at
least one character, so its length is fuel enough. -/
def ReadsBack (data : Data) : Prop :=
  ∀ fuel rest, (write data).length ≤ fuel → readValue fuel (write data ++ rest) = .ok (data, rest)

theorem write_text (content : Text) :
    write (.text content) = '"' :: (content.flatMap escapeChar ++ ['"']) := by
  rw [write]
  rfl

theorem write_list_nil : write (.list []) = ['[', ']'] := by
  rw [write]
  rfl

theorem write_list_cons (element : Data) (elements : List Data) :
    write (.list (element :: elements)) = '[' :: (write element ++ writeElements elements) := by
  rw [write]
  rfl

theorem writeElements_nil : writeElements [] = [']'] := by
  rw [writeElements]
  rfl

theorem writeElements_cons (element : Data) (elements : List Data) :
    writeElements (element :: elements) =
      ',' :: ' ' :: (write element ++ writeElements elements) := by
  rw [writeElements]
  rfl

theorem write_record_nil : write (.record []) = ['{', '}'] := by
  rw [write]
  rfl

/-- A field as it is written. -/
def fieldText (field : Text × Data) : Text := quote field.1 ++ ':' :: ' ' :: write field.2

theorem write_record_cons (field : Text × Data) (fields : List (Text × Data)) :
    write (.record (field :: fields)) = '{' :: (fieldText field ++ writeFields fields) := by
  rw [write]
  simp [fieldText]

theorem length_write_lt (field : Text × Data) :
    (write field.2).length < (fieldText field).length := by
  simp only [fieldText, List.length_append, List.length_cons]
  omega

theorem writeFields_nil : writeFields [] = ['}'] := by
  rw [writeFields]
  rfl

theorem writeFields_cons (field : Text × Data) (fields : List (Text × Data)) :
    writeFields (field :: fields) = ',' :: ' ' :: (fieldText field ++ writeFields fields) := by
  rw [writeFields]
  simp [fieldText]

theorem skipSpace_cons {c : Char} (solid : isSpace c = false) (text : Text) :
    skipSpace (c :: text) = c :: text :=
  List.dropWhile_cons_of_neg (by simp [solid])

/-- What a value starts with. -/
theorem head_write {data : Data} (textual : Textual data) :
    ∃ c left, write data = c :: left ∧ isSpace c = false ∧ c ≠ ']' := by
  cases textual with
  | text content => exact ⟨'"', _, write_text content, rfl, by decide⟩
  | @list elements _ =>
      cases elements with
      | nil => exact ⟨'[', _, write_list_nil, rfl, by decide⟩
      | cons element elements => exact ⟨'[', _, write_list_cons element elements, rfl, by decide⟩
  | @record fields _ =>
      cases fields with
      | nil => exact ⟨'{', _, write_record_nil, rfl, by decide⟩
      | cons field fields => exact ⟨'{', _, write_record_cons field fields, rfl, by decide⟩

theorem skipSpace_write {data : Data} (textual : Textual data) (rest : Text) :
    skipSpace (write data ++ rest) = write data ++ rest := by
  obtain ⟨c, left, starts, solid, _⟩ := head_write textual
  rw [starts, List.cons_append, skipSpace_cons solid]

theorem readElements_last {fuel : Nat} {text rest : Text} {element : Data}
    (reads : readValue fuel text = .ok (element, ']' :: rest)) :
    readElements (fuel + 1) text = .ok ([element], rest) := by
  rw [readElements, reads]
  rfl

theorem readElements_more {fuel : Nat} {text more rest : Text} {element : Data}
    {elements : List Data} (reads : readValue fuel text = .ok (element, ',' :: ' ' :: more))
    (solid : skipSpace more = more) (later : readElements fuel more = .ok (elements, rest)) :
    readElements (fuel + 1) text = .ok (element :: elements, rest) := by
  have blank : skipSpace (' ' :: more) = more := solid
  rw [readElements, reads]
  simp only [bind, Except.bind, skipSpace_cons (show isSpace ',' = false from rfl), blank, later]
  rfl

theorem readElements_write {element : Data} {elements : List Data}
    (reads : ∀ other ∈ element :: elements, Textual other ∧ ReadsBack other) {fuel : Nat}
    (enough : (write element ++ writeElements elements).length ≤ fuel) (rest : Text) :
    readElements fuel (write element ++ (writeElements elements ++ rest)) =
      .ok (element :: elements, rest) := by
  induction elements generalizing element fuel with
  | nil =>
      rw [writeElements_nil, List.length_append, List.length_singleton] at enough
      obtain ⟨fuel, rfl⟩ := Nat.exists_eq_add_one.mpr (Nat.lt_of_lt_of_le (by omega) enough)
      rw [writeElements_nil]
      exact readElements_last ((reads element (by simp)).2 fuel _ (by omega))
  | cons next elements ih =>
      obtain ⟨⟨_, first⟩, later⟩ := List.forall_mem_cons.mp reads
      rw [writeElements_cons] at enough ⊢
      simp only [List.length_cons, List.length_append] at enough
      obtain ⟨fuel, rfl⟩ := Nat.exists_eq_add_one.mpr (Nat.lt_of_lt_of_le (by omega) enough)
      simp only [List.cons_append, List.append_assoc]
      refine readElements_more (first fuel _ (by omega))
        (skipSpace_write (later next (by simp)).1 _) (ih later ?_)
      rw [List.length_append]
      omega

theorem readValue_list {fuel : Nat} {c : Char} {left rest : Text} {elements : List Data}
    (solid : isSpace c = false) (other : c ≠ ']')
    (inner : readElements fuel (c :: left) = .ok (elements, rest)) :
    readValue (fuel + 1) ('[' :: c :: left) = .ok (.list elements, rest) := by
  rw [readValue, if_neg (by decide), if_pos rfl, skipSpace_cons solid]
  split
  next closes => exact absurd (List.cons.inj closes).1 other
  next =>
      rw [inner]
      rfl

theorem ReadsBack.list {elements : List Data}
    (reads : ∀ element ∈ elements, Textual element ∧ ReadsBack element) :
    ReadsBack (.list elements) := by
  intro fuel rest enough
  cases elements with
  | nil =>
      rw [write_list_nil] at enough ⊢
      obtain ⟨fuel, rfl⟩ := Nat.exists_eq_add_one.mpr (Nat.lt_of_lt_of_le (by simp) enough)
      rfl
  | cons element elements =>
      rw [write_list_cons, List.length_cons] at enough
      obtain ⟨fuel, rfl⟩ := Nat.exists_eq_add_one.mpr (Nat.lt_of_lt_of_le (by omega) enough)
      have inner := readElements_write reads (Nat.le_of_succ_le_succ enough) rest
      obtain ⟨c, left, starts, solid, other⟩ := head_write (reads element (by simp)).1
      rw [write_list_cons, List.cons_append, List.append_assoc]
      rw [starts] at inner ⊢
      exact readValue_list solid other inner

theorem required_name (name : Text) (value : Data) (more : Text) :
    required (Text.dropPrefix? ['"'] (fieldText (name, value) ++ more) >>= text?) =
      .ok (name, ':' :: ' ' :: (write value ++ more)) := by
  have quoted : fieldText (name, value) ++ more =
      '"' :: (name.flatMap escapeChar ++ '"' :: ':' :: ' ' :: (write value ++ more)) := by
    simp [fieldText, quote]
  have opened (text : Text) : Text.dropPrefix? ['"'] ('"' :: text) = some text := rfl
  rw [quoted, opened, Option.bind_eq_bind, Option.bind_some, text?_quoted]
  rfl

theorem required_colon (text : Text) :
    required (Text.dropPrefix? [':'] (skipSpace (':' :: text))) = .ok text :=
  rfl

section

variable {fuel : Nat} {name rest : Text} {value : Data} (textual : Textual value)
include textual

theorem readFields_last
    (reads : readValue fuel (write value ++ '}' :: rest) = .ok (value, '}' :: rest)) :
    readFields (fuel + 1) (fieldText (name, value) ++ '}' :: rest) =
      .ok ([(name, value)], rest) := by
  have blank : skipSpace (' ' :: (write value ++ '}' :: rest)) = write value ++ '}' :: rest :=
    skipSpace_write textual _
  rw [readFields, required_name]
  simp only [bind, Except.bind, required_colon, blank, reads]
  rfl

theorem readFields_more {more : Text} {fields : List (Text × Data)}
    (reads : readValue fuel (write value ++ ',' :: ' ' :: more) = .ok (value, ',' :: ' ' :: more))
    (solid : skipSpace more = more) (later : readFields fuel more = .ok (fields, rest)) :
    readFields (fuel + 1) (fieldText (name, value) ++ ',' :: ' ' :: more) =
      .ok ((name, value) :: fields, rest) := by
  have blank : skipSpace (' ' :: (write value ++ ',' :: ' ' :: more)) =
      write value ++ ',' :: ' ' :: more := skipSpace_write textual _
  have next : skipSpace (' ' :: more) = more := solid
  rw [readFields, required_name]
  simp only [bind, Except.bind, required_colon, blank, reads,
    skipSpace_cons (show isSpace ',' = false from rfl), next, later]
  rfl

end

theorem skipSpace_fieldText (field : Text × Data) (rest : Text) :
    skipSpace (fieldText field ++ rest) = fieldText field ++ rest := rfl

theorem readFields_write {field : Text × Data} {fields : List (Text × Data)}
    (reads : ∀ other ∈ field :: fields, Textual other.2 ∧ ReadsBack other.2) {fuel : Nat}
    (enough : (fieldText field ++ writeFields fields).length ≤ fuel) (rest : Text) :
    readFields fuel (fieldText field ++ (writeFields fields ++ rest)) =
      .ok (field :: fields, rest) := by
  induction fields generalizing field fuel with
  | nil =>
      obtain ⟨textual, first⟩ := reads field (by simp)
      have size := length_write_lt field
      rw [writeFields_nil, List.length_append] at enough
      obtain ⟨fuel, rfl⟩ := Nat.exists_eq_add_one.mpr (Nat.lt_of_lt_of_le (by omega) enough)
      rw [writeFields_nil]
      exact readFields_last textual (first fuel _ (by omega))
  | cons next fields ih =>
      obtain ⟨⟨textual, first⟩, later⟩ := List.forall_mem_cons.mp reads
      have size := length_write_lt field
      rw [writeFields_cons] at enough ⊢
      simp only [List.length_cons, List.length_append] at enough
      obtain ⟨fuel, rfl⟩ := Nat.exists_eq_add_one.mpr (Nat.lt_of_lt_of_le (by omega) enough)
      simp only [List.cons_append, List.append_assoc]
      refine readFields_more textual (first fuel _ (by omega)) (skipSpace_fieldText next _)
        (ih later ?_)
      rw [List.length_append]
      omega

theorem readValue_record {fuel : Nat} {left rest : Text} {fields : List (Text × Data)}
    (inner : readFields fuel ('"' :: left) = .ok (fields, rest)) :
    readValue (fuel + 1) ('{' :: '"' :: left) = .ok (.record fields, rest) := by
  rw [readValue, if_neg (by decide), if_neg (by decide), if_pos rfl,
    skipSpace_cons (show isSpace '"' = false from rfl)]
  split
  next closes => exact absurd (List.cons.inj closes).1 (by decide)
  next =>
      rw [inner]
      rfl

theorem ReadsBack.record {fields : List (Text × Data)}
    (reads : ∀ field ∈ fields, Textual field.2 ∧ ReadsBack field.2) :
    ReadsBack (.record fields) := by
  intro fuel rest enough
  cases fields with
  | nil =>
      rw [write_record_nil] at enough ⊢
      obtain ⟨fuel, rfl⟩ := Nat.exists_eq_add_one.mpr (Nat.lt_of_lt_of_le (by simp) enough)
      rfl
  | cons field fields =>
      rw [write_record_cons, List.length_cons] at enough
      obtain ⟨fuel, rfl⟩ := Nat.exists_eq_add_one.mpr (Nat.lt_of_lt_of_le (by omega) enough)
      have inner := readFields_write reads (Nat.le_of_succ_le_succ enough) rest
      rw [write_record_cons, List.cons_append, List.append_assoc]
      exact readValue_record inner

theorem ReadsBack.text (content : Text) : ReadsBack (.text content) := by
  intro fuel rest enough
  rw [write_text, List.length_cons] at enough
  obtain ⟨fuel, rfl⟩ := Nat.exists_eq_add_one.mpr (Nat.lt_of_lt_of_le (by omega) enough)
  rw [write_text, List.cons_append, List.append_assoc, readValue, if_pos rfl]
  simp only [List.singleton_append, text?_quoted]
  rfl

theorem readsBack {data : Data} (textual : Textual data) : ReadsBack data := by
  induction textual with
  | text content => exact .text content
  | list textual reads =>
      exact .list fun element member => ⟨textual element member, reads element member⟩
  | record textual reads =>
      exact .record fun field member => ⟨textual field member, reads field member⟩

theorem read_write {data : Data} (textual : Textual data) : read (write data) = .ok data := by
  have value := readsBack textual (2 * (write data).length + 1) [] (by omega)
  have solid := skipSpace_write textual []
  rw [List.append_nil] at value solid
  simp only [read, solid, value, bind, Except.bind]
  rfl

theorem printable_quote (content : Text) : (quote content).all isPrintable = true := by
  have inside : (content.flatMap escapeChar).all isPrintable = true := by
    rw [List.all_flatMap, List.all_eq_true]
    exact fun c _ => (spells_escapeChar c).printable
  rw [quote, List.all_append, List.all_cons, inside]
  rfl

theorem printable_writeElements {elements : List Data}
    (printable : ∀ element ∈ elements, (write element).all isPrintable = true) :
    (writeElements elements).all isPrintable = true := by
  induction elements with
  | nil =>
      rw [writeElements_nil]
      rfl
  | cons element elements ih =>
      obtain ⟨first, later⟩ := List.forall_mem_cons.mp printable
      rw [writeElements_cons, List.all_cons, List.all_cons, List.all_append, first, ih later]
      rfl

theorem printable_fieldText {field : Text × Data}
    (printable : (write field.2).all isPrintable = true) :
    (fieldText field).all isPrintable = true := by
  rw [fieldText, List.all_append, printable_quote, List.all_cons, List.all_cons, printable]
  rfl

theorem printable_writeFields {fields : List (Text × Data)}
    (printable : ∀ field ∈ fields, (write field.2).all isPrintable = true) :
    (writeFields fields).all isPrintable = true := by
  induction fields with
  | nil =>
      rw [writeFields_nil]
      rfl
  | cons field fields ih =>
      obtain ⟨first, later⟩ := List.forall_mem_cons.mp printable
      rw [writeFields_cons, List.all_cons, List.all_cons, List.all_append,
        printable_fieldText first, ih later]
      rfl

theorem printable_write {data : Data} (textual : Textual data) :
    (write data).all isPrintable = true := by
  induction textual with
  | text content =>
      rw [write]
      exact printable_quote content
  | @list elements _ printable =>
      cases elements with
      | nil =>
          rw [write_list_nil]
          rfl
      | cons element elements =>
          obtain ⟨first, later⟩ := List.forall_mem_cons.mp printable
          rw [write_list_cons, List.all_cons, List.all_append, first, printable_writeElements later]
          rfl
  | @record fields _ printable =>
      cases fields with
      | nil =>
          rw [write_record_nil]
          rfl
      | cons field fields =>
          obtain ⟨first, later⟩ := List.forall_mem_cons.mp printable
          rw [write_record_cons, List.all_cons, List.all_append, printable_fieldText first,
            printable_writeFields later]
          rfl

end Flatsheet.Json
