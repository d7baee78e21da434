import Flatsheet.Proofs.Reading
import Flatsheet.Resource.Path

/-!
Directories of paths. An import is resolved by writing it after the directory of the resource in
which it stands. Directories of relative paths add up, so an import inside an import can be resolved
step by step, or against the outer resource after the two imports are put together.
-/

namespace Flatsheet

namespace Text

theorem partitionLast_eq_none {mark : Char} {text : Text} :
    partitionLast mark text = none ↔ mark ∉ text := by
  unfold partitionLast
  split
  next before found => simpa using (partition_eq_none found).2
  next before after found =>
      have marked : mark ∈ text.reverse := by simp [(partition_eq_some found).1]
      simpa using marked

theorem partitionLast_eq_some {mark : Char} {text before after : Text} :
    partitionLast mark text = some (before, after) ↔
      text = before ++ mark :: after ∧ mark ∉ after := by
  constructor
  · intro found
    unfold partitionLast at found
    split at found
    · contradiction
    next split =>
        obtain ⟨rfl, rfl⟩ := Prod.mk.inj (Option.some.inj found)
        obtain ⟨reversed, absent⟩ := partition_eq_some split
        refine ⟨?_, List.mem_reverse.not.mpr absent⟩
        simpa using congrArg List.reverse reversed
  · intro written
    obtain ⟨split, absent⟩ := written
    have reversed : text.reverse = after.reverse ++ mark :: before.reverse := by simp [split]
    rw [partitionLast, reversed, partition_append_mark (List.mem_reverse.not.mpr absent)]
    simp

theorem dropWhile_dropWhile_append (p : Char → Bool) (front rest : Text) :
    (front.dropWhile p ++ rest).dropWhile p = (front ++ rest).dropWhile p := by
  induction front with
  | nil => rfl
  | cons c front ih => by_cases drops : p c = true <;> simp [drops, ih]

end Text

namespace Path

theorem dropWhile_slash_eq_self_iff {path : Text} :
    path.dropWhile (· = '/') = path ↔ path.head? ≠ some '/' := by
  cases path with
  | nil => simp
  | cons c path =>
      by_cases rooted : c = '/'
      · have shorter := (List.dropWhile_sublist (l := path) (· = '/')).length_le
        simp only [rooted, List.head?_cons, ne_eq, not_true_eq_false, iff_false]
        intro same
        have sizes := congrArg List.length same
        simp at sizes
        omega
      · simp [rooted]

/-- The path up to its last slash, that slash included. -/
def directory (path : Text) : Text :=
  (Text.partitionLast '/' path).elim [] fun split => split.1 ++ ['/']

theorem directory_of_not_mem {path : Text} (absent : '/' ∉ path) : directory path = [] := by
  rw [directory, Text.partitionLast_eq_none.mpr absent]
  rfl

theorem directory_append_slash {front segment : Text} (absent : '/' ∉ segment) :
    directory (front ++ '/' :: segment) = front ++ ['/'] := by
  rw [directory, Text.partitionLast_eq_some.mpr ⟨rfl, absent⟩]
  rfl

/-- A path has no slash, or it is a directory and a segment. -/
theorem segment_cases (path : Text) :
    '/' ∉ path ∨ ∃ front segment, '/' ∉ segment ∧ path = front ++ '/' :: segment := by
  cases found : Text.partitionLast '/' path with
  | none => exact .inl (Text.partitionLast_eq_none.mp found)
  | some split =>
      obtain ⟨shape, absent⟩ := Text.partitionLast_eq_some.mp found
      exact .inr ⟨split.1, split.2, absent, shape⟩

/-- A path written after a directory has the directory of the path inside that directory. -/
theorem directory_append (base path : Text) :
    directory (directory base ++ path) = directory base ++ directory path := by
  rcases segment_cases base with flat | ⟨front, segment, absent, rfl⟩
  · rw [directory_of_not_mem flat, List.nil_append, List.nil_append]
  · rw [directory_append_slash absent]
    rcases segment_cases path with flat | ⟨inner, last, absent, rfl⟩
    · rw [directory_of_not_mem flat, List.append_nil, List.append_assoc, List.singleton_append,
        directory_append_slash flat]
    · rw [directory_append_slash absent, ← List.append_assoc, directory_append_slash absent,
        List.append_assoc]

theorem directory_dropWhile (path : Text) :
    directory (path.dropWhile (· = '/')) = (directory path).dropWhile (· = '/') := by
  rcases segment_cases path with flat | ⟨front, segment, absent, rfl⟩
  · have still : '/' ∉ path.dropWhile (· = '/') := fun member =>
      flat ((List.dropWhile_sublist _).subset member)
    rw [directory_of_not_mem flat, directory_of_not_mem still]
    rfl
  · rw [directory_append_slash absent, List.dropWhile_append, List.dropWhile_append]
    split
    · have still : '/' ∉ segment.dropWhile (· = '/') := fun member =>
        absent ((List.dropWhile_sublist _).subset member)
      simp [directory_of_not_mem still]
    · exact directory_append_slash absent

theorem head?_directory_append {path next : Text} (relative : path.head? ≠ some '/')
    (onward : next.head? ≠ some '/') : (directory path ++ next).head? ≠ some '/' := by
  rcases segment_cases path with flat | ⟨front, segment, absent, rfl⟩
  · rwa [directory_of_not_mem flat]
  · rw [directory_append_slash absent]
    cases front with
    | nil => exact absurd rfl relative
    | cons c front => exact relative

theorem resolve_eq (base : Option Text) (path : Text) :
    resolve base path = (directory (base.getD []) ++ path).dropWhile (· = '/') := by
  unfold resolve directory
  cases Text.partitionLast '/' (base.getD []) with
  | none => rfl
  | some split => simp

theorem directory_resolve (base : Option Text) (path : Text) :
    directory (resolve base path) =
      (directory (base.getD []) ++ directory path).dropWhile (· = '/') := by
  rw [resolve_eq, directory_dropWhile, directory_append]

/-- Resolving imports is associative. An import inside an import may be resolved against what the
outer one resolves to, or the two are put together and then resolved against the base. -/
theorem resolve_assoc {path next : Text} (relative : path.head? ≠ some '/')
    (onward : next.head? ≠ some '/') (base : Option Text) :
    resolve (some (resolve base path)) next = resolve base (resolve (some path) next) := by
  have inner : resolve (some path) next = directory path ++ next := by
    rw [resolve_eq, Option.getD_some]
    exact dropWhile_slash_eq_self_iff.mpr (head?_directory_append relative onward)
  calc resolve (some (resolve base path)) next
      = ((directory (base.getD []) ++ directory path).dropWhile (· = '/') ++ next).dropWhile
          (· = '/') := by rw [resolve_eq, Option.getD_some, directory_resolve]
    _ = (directory (base.getD []) ++ directory path ++ next).dropWhile (· = '/') := by
        apply Text.dropWhile_dropWhile_append
    _ = resolve base (resolve (some path) next) := by
        rw [inner, resolve_eq, List.append_assoc]

/-- The base is rooted and has an empty segment, and the first import names a directory. -/
theorem resolve_assoc_rooted :
    let base : Text := "/css//main.scss".toList
    let path : Text := "parts/a.scss".toList
    let next : Text := "b.scss".toList
    (path.head? ≠ some '/' ∧ next.head? ≠ some '/') ∧
      resolve (some base) path = "css//parts/a.scss".toList ∧
      resolve (some (resolve (some base) path)) next =
        resolve (some base) (resolve (some path) next) ∧
      resolve (some base) (resolve (some path) next) = "css//parts/b.scss".toList :=
  ⟨⟨by decide, by decide⟩, by decide, resolve_assoc (by decide) (by decide) _, by decide⟩

/-- A rooted import keeps its slash inside a directory and loses it at the front of a path. -/
example : resolve (some (resolve (some "css/main.scss".toList) "/a.scss")) "b.scss" ≠
    resolve (some "css/main.scss".toList) (resolve (some "/a.scss".toList) "b.scss") := by
  decide

end Path

end Flatsheet
