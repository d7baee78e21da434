import Flatsheet.Proofs.UnmarkedPasses
import Flatsheet.Snapshot

/-!
Snapshots and placeholders. A snapshot puts the literals back into the values of variables and the
bodies of mixins, and leaves the parameters of mixins as they were filed. So a mark is left in the
snapshot of a conversion exactly where a literal stands in a parameter, apart from a path that has
one and from values that binding has cut.
-/

namespace Flatsheet

open Vault

universe u v

namespace Data

mutual

/-- The texts in the data, the names of fields included. -/
def texts : Data → List Text
  | .text content => [content]
  | .list elements => elementTexts elements
  | .record fields => fieldTexts fields
  | _ => []

def elementTexts : List Data → List Text
  | [] => []
  | element :: elements => texts element ++ elementTexts elements

def fieldTexts : List (Text × Data) → List Text
  | [] => []
  | (name, value) :: fields => name :: (texts value ++ fieldTexts fields)

end

/-- No mark stands in a text of the data. -/
def Plain (data : Data) : Prop := ∀ text ∈ data.texts, Unmarked text

instance (data : Data) : Decidable data.Plain := List.decidableBAll _ data.texts

theorem plain_text {content : Text} : (Data.text content).Plain ↔ Unmarked content := by
  simp [Plain, texts]

theorem plain_list {elements : List Data} :
    (Data.list elements).Plain ↔ ∀ element ∈ elements, element.Plain := by
  induction elements with
  | nil => simp [Plain, texts, elementTexts]
  | cons element elements ih =>
      simp only [Plain, texts, elementTexts, List.mem_append, or_imp, forall_and,
        List.forall_mem_cons] at ih ⊢
      rw [ih]

theorem plain_record {fields : List (Text × Data)} :
    (Data.record fields).Plain ↔ ∀ field ∈ fields, Unmarked field.1 ∧ field.2.Plain := by
  induction fields with
  | nil => simp [Plain, texts, fieldTexts]
  | cons field fields ih =>
      obtain ⟨name, value⟩ := field
      simp only [Plain, texts, fieldTexts, List.mem_cons, List.mem_append, or_imp, forall_and,
        forall_eq] at ih ⊢
      rw [ih]
      tauto

theorem plain_optional {content : Option Text} :
    ((content.map Data.text).getD .null).Plain ↔ ∀ text ∈ content, Unmarked text := by
  cases content with
  | none => simp [Plain, texts]
  | some text => simpa using plain_text

end Data

theorem Text.mem_insertSorted {α : Type u} {entry added : Text × α} {entries : List (Text × α)} :
    entry ∈ insertSorted added entries ↔ entry = added ∨ entry ∈ entries := by
  induction entries with
  | nil => simp [insertSorted]
  | cons other entries ih =>
      rw [insertSorted]
      split
      · rw [List.mem_cons]
      · rw [List.mem_cons, ih, List.mem_cons, or_left_comm]

theorem Text.mem_sortEntries {α : Type u} {entry : Text × α} {entries : List (Text × α)} :
    entry ∈ sortEntries entries ↔ entry ∈ entries := by
  induction entries with
  | nil => rfl
  | cons first entries ih =>
      rw [sortEntries, List.foldr_cons, mem_insertSorted, List.mem_cons, ← ih, sortEntries]

/-- A map over a list succeeds with good results if it does so at every element. -/
theorem exists_mapM_ok {α : Type u} {β ε : Type v} {f : α → Except ε β} {good : β → Prop}
    {inputs : List α} :
    (∃ results, inputs.mapM f = .ok results ∧ ∀ result ∈ results, good result) ↔
      ∀ input ∈ inputs, ∃ result, f input = .ok result ∧ good result := by
  induction inputs with
  | nil => simp [pure, Except.pure]
  | cons input inputs ih =>
      rw [List.forall_mem_cons, ← ih, List.mapM_cons]
      cases f input with
      | error error => simp [bind, Except.bind]
      | ok result =>
          cases inputs.mapM f with
          | error error => simp [bind, Except.bind]
          | ok results => simp [bind, Except.bind, pure, Except.pure]

/-- The literals of the text can be put back, and no mark is left. -/
def Vault.Clears (vault : Vault) (text : Text) : Prop :=
  ∃ restored, vault.restore text = .ok restored ∧ Unmarked restored

/-- No mark stands in the name of the parameter, nor in its default. -/
def Parameter.Plain (parameter : Parameter) : Prop :=
  Unmarked parameter.name ∧ ∀ value ∈ parameter.default, Unmarked value

instance (parameter : Parameter) : Decidable parameter.Plain :=
  inferInstanceAs (Decidable (_ ∧ _))

namespace Mixin

theorem plain_parameterData {parameter : Parameter} :
    (parameterData parameter).Plain ↔ parameter.Plain := by
  have names : Unmarked "default" ∧ Unmarked "name" := by decide
  simp only [parameterData, Data.plain_record, List.forall_mem_cons, List.not_mem_nil,
    false_imp_iff, implies_true, names, true_and, and_true, Data.plain_text, Data.plain_optional]
  exact and_comm

theorem plain_toData {mixin : Mixin} :
    mixin.toData.Plain ↔ Unmarked mixin.body ∧ Unmarked mixin.name ∧
      ∀ parameter ∈ mixin.parameters, parameter.Plain := by
  have names : Unmarked "body" ∧ Unmarked "name" ∧ Unmarked "parameters" := by decide
  simp only [toData, Data.plain_record, List.forall_mem_cons, List.not_mem_nil, false_imp_iff,
    implies_true, names, true_and, and_true, Data.plain_text, Data.plain_list, List.forall_mem_map,
    plain_parameterData]

end Mixin

namespace Context

variable {context : Context} {vault : Vault}

/-- A variable as a field, with its literals put back. -/
def variableField (vault : Vault) (entry : Text × Text) : Except Fault (Text × Data) := do
  return (entry.1, .text (← (vault.restore entry.2).mapError Fault.literal))

/-- A mixin as a field, with the literals put back into its body. -/
def mixinField (vault : Vault) (entry : Text × Mixin) : Except Fault (Text × Data) := do
  return (entry.1,
    { entry.2 with body := ← (vault.restore entry.2.body).mapError Fault.literal }.toData)

theorem exists_variableField {entry : Text × Text} :
    (∃ field, variableField vault entry = .ok field ∧ Unmarked field.1 ∧ field.2.Plain) ↔
      Unmarked entry.1 ∧ vault.Clears entry.2 := by
  unfold variableField Vault.Clears
  cases vault.restore entry.2 with
  | error error => simp [Except.mapError, bind, Except.bind]
  | ok restored =>
      simp [Except.mapError, bind, Except.bind, pure, Except.pure, Data.plain_text]

theorem exists_mixinField {entry : Text × Mixin} :
    (∃ field, mixinField vault entry = .ok field ∧ Unmarked field.1 ∧ field.2.Plain) ↔
      Mixin.EntryPlain entry ∧ (∀ parameter ∈ entry.2.parameters, parameter.Plain) ∧
        vault.Clears entry.2.body := by
  unfold mixinField Vault.Clears Mixin.EntryPlain
  cases vault.restore entry.2.body with
  | error error => simp [Except.mapError, bind, Except.bind]
  | ok body =>
      simp [Except.mapError, bind, Except.bind, pure, Except.pure, Mixin.plain_toData]
      tauto

/-- The fields of a snapshot, once the literals are put back. -/
def record (context : Context) (globals mixins : List (Text × Data)) : Data :=
  .record [
    ("base_path", (context.basePath.map Data.text).getD .null),
    ("diagnostics", .list (context.diagnostics.map fun diagnostic => .text diagnostic.render)),
    ("mixins", .record (Text.sortEntries mixins)),
    ("options", context.options.toData),
    ("quotes", .list (context.vault.literals.map .text)),
    ("variables", .record (Text.sortEntries globals))]

theorem plain_record {globals mixins : List (Text × Data)} :
    (context.record globals mixins).Plain ↔ (∀ path ∈ context.basePath, Unmarked path) ∧
      (∀ diagnostic ∈ context.diagnostics, Unmarked diagnostic.render) ∧
      (∀ field ∈ mixins, Unmarked field.1 ∧ field.2.Plain) ∧ context.vault.Plain ∧
      ∀ field ∈ globals, Unmarked field.1 ∧ field.2.Plain := by
  have names : Unmarked "base_path" ∧ Unmarked "diagnostics" ∧ Unmarked "mixins" ∧
      Unmarked "options" ∧ Unmarked "quotes" ∧ Unmarked "variables" := by decide
  have options : context.options.toData.Plain :=
    Data.plain_record.mpr (by simpa [Data.Plain, Data.texts] using (by decide : Unmarked "nc"))
  simp only [record, Data.plain_record, List.forall_mem_cons, List.not_mem_nil, false_imp_iff,
    implies_true, names, options, true_and, and_true, Data.plain_text, Data.plain_list,
    List.forall_mem_map, Data.plain_optional, Text.mem_sortEntries, Vault.Plain]

theorem snapshot_eq (context : Context) : context.snapshot = (do
    let globals ← context.globals.entries.mapM (variableField context.vault)
    let mixins ← context.mixins.entries.mapM (mixinField context.vault)
    return context.record globals mixins) := rfl

theorem snapshot_plain_iff :
    (∃ data, context.snapshot = .ok data ∧ data.Plain) ↔
      (∀ path ∈ context.basePath, Unmarked path) ∧
      (∀ diagnostic ∈ context.diagnostics, Unmarked diagnostic.render) ∧
      (∀ entry ∈ context.mixins.entries, Mixin.EntryPlain entry ∧
        (∀ parameter ∈ entry.2.parameters, parameter.Plain) ∧
        context.vault.Clears entry.2.body) ∧
      context.vault.Plain ∧
      ∀ entry ∈ context.globals.entries, Unmarked entry.1 ∧ context.vault.Clears entry.2 := by
  have globals := @exists_mapM_ok _ _ _ (variableField context.vault)
    (fun field => Unmarked field.1 ∧ field.2.Plain) context.globals.entries
  have mixins := @exists_mapM_ok _ _ _ (mixinField context.vault)
    (fun field => Unmarked field.1 ∧ field.2.Plain) context.mixins.entries
  simp only [exists_variableField, exists_mixinField] at globals mixins
  rw [← globals, ← mixins, snapshot_eq]
  cases context.globals.entries.mapM (variableField context.vault) with
  | error error => simp [bind, Except.bind]
  | ok declared =>
      cases context.mixins.entries.mapM (mixinField context.vault) with
      | error error => simp [bind, Except.bind]
      | ok filed => simp [bind, Except.bind, pure, Except.pure, plain_record]

end Context

/-- What a snapshot after a conversion shows, if no mark is written in the sheet and its resources:
none either, exactly if none stands in the path, in a parameter, and in a value once its literals
are put back. The last holds unless a parameter with a number for its name was registered. -/
theorem snapshot_convertAt_plain_iff {source : Text} {resources : Table Resource}
    (path basePath root : Option Text) (options : Options) (cache : Cache)
    (unmarked : Unmarked source) (files : resources.All Resource.Plain) :
    let context := ((convertAt path source root).run.run
      (Context.fresh basePath options resources cache)).2
    ((∃ data, context.snapshot = .ok data ∧ data.Plain) ↔
      (∀ known ∈ context.basePath, Unmarked known) ∧
      (context.mixins.All fun mixin => ∀ parameter ∈ mixin.parameters, parameter.Plain) ∧
      context.globals.All context.vault.Clears) ∧
    (Bindable context.mixins → context.globals.All context.vault.Clears) := by
  obtain ⟨text, context, ran, plain, intact⟩ :=
    preprocess_plain (path <|> basePath) options cache unmarked files
  have final : ((convertAt path source root).run.run
      (Context.fresh basePath options resources cache)).2 = context := by
    have converted := run_convert ran root
    exact congrArg Prod.snd converted
  rw [final]
  refine ⟨?_, fun bindable => ?_⟩
  · rw [Context.snapshot_plain_iff]
    constructor
    · rintro ⟨based, _, mixins, _, globals⟩
      exact ⟨based, fun entry member => (mixins entry member).2.1,
        fun entry member => (globals entry member).2⟩
    · rintro ⟨based, parameters, globals⟩
      refine ⟨based, plain.diagnostics based, fun entry member => ?_, plain.vault,
        fun entry member => ⟨plain.globals entry member, globals entry member⟩⟩
      exact ⟨plain.mixins entry member, parameters entry member,
        plain.vault.restore (intact entry member).body⟩
  · have sound := preprocess_sound unmarked (files.mono fun _ => Resource.Plain.clean) ran bindable
    exact sound.globals.mono fun _ => plain.vault.restore

/-- Literals in variables, in bodies and arguments, in an imported sheet and in the diagnostics
about a missing import and a missing semicolon. -/
theorem snapshot_convertAt_plain_literals :
    let source : Text := ("@import \"_base\"; @import \"_gone\"; $v: \"a\"; " ++
      "@mixin m($x: 1px) \x7b b: \"c\" $x; \x7d p \x7b @include m(\"d\"); c: \"d\" \x7d").toList
    let resources : Table Resource := Table.ofList
      [("s/base".toList, .text "$f: 'f'; @mixin n \x7b x: \"y\"; \x7d".toList)]
    let context := ((convertAt (some "s/x.scss".toList) source none).run.run
      (Context.fresh none .default resources .empty)).2
    (Unmarked source ∧ resources.All Resource.Plain) ∧
      context.vault.size = 8 ∧ context.diagnostics.length = 2 ∧
      ∃ data, context.snapshot = .ok data ∧ data.Plain := by
  intro source resources context
  have unmarked : Unmarked source := by decide +kernel
  have files : resources.All Resource.Plain := by decide +kernel
  have collected : (context.vault.size = 8 ∧ context.diagnostics.length = 2) ∧
      Bindable context.mixins ∧ (∀ known ∈ context.basePath, Unmarked known) ∧
      context.mixins.All fun mixin => ∀ parameter ∈ mixin.parameters, parameter.Plain := by
    decide +kernel
  obtain ⟨⟨literals, diagnostics⟩, bindable, based, parameters⟩ := collected
  obtain ⟨shown, cleared⟩ := snapshot_convertAt_plain_iff (some "s/x.scss".toList) none none
    .default .empty unmarked files
  exact ⟨⟨unmarked, files⟩, literals, diagnostics,
    shown.mpr ⟨based, parameters, cleared bindable⟩⟩

/-- A literal as the default of a parameter is shown as its placeholder. So is what binding makes of
one, where a parameter has a number for its name. -/
theorem snapshot_convertAt_marked :
    let convert (source : Text) :=
      (convertAt none source none).run.run (Context.fresh none .default .empty .empty)
    let shows (source text : Text) : Bool :=
      (convert source).1.toOption.isSome &&
        (convert source).2.snapshot.toOption.any fun data => data.texts.contains text
    (Unmarked "@mixin m($a: \"x\") \x7b b: $a; \x7d" ∧
        shows "@mixin m($a: \"x\") \x7b b: $a; \x7d" (placeholder 1) = true) ∧
      Unmarked "@mixin m(1) \x7b $v: \"a\"; \x7d b \x7b @include m(x); \x7d" ∧
        shows "@mixin m(1) \x7b $v: \"a\"; \x7d b \x7b @include m(x); \x7d"
          "\ue000x\ue001" = true := by
  decide +kernel

end Flatsheet
