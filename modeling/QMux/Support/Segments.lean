import Mathlib.Data.List.Infix

/-!
# Segments between separators

A list that begins with a separator is the concatenation of its segments, each
with the separator in front.  Searching such a list for a word enclosed by
separators asks for a segment before the last one; a separated word at the end
is the last segment.
-/

namespace QMux.Support

variable {α : Type*} {sep : α}

/-- Concatenate segments, each with the separator in front. -/
def joinSegments (sep : α) (segments : List (List α)) : List α :=
  segments.flatMap (sep :: ·)

@[simp] theorem joinSegments_nil : joinSegments sep [] = [] := rfl

@[simp] theorem joinSegments_cons (segment : List α)
    (segments : List (List α)) :
    joinSegments sep (segment :: segments) =
      sep :: (segment ++ joinSegments sep segments) := rfl

theorem splitOn_cons [DecidableEq α] (item : α) (rest : List α) :
    (item :: rest).splitOn sep = if item = sep then [] :: rest.splitOn sep
      else (rest.splitOn sep).modifyHead (item :: ·) := by
  simp [List.splitOn, List.splitOnP_cons_eq_if_modifyHead]

/-- Splitting at the separator loses nothing. -/
theorem joinSegments_splitOn [DecidableEq α] (rest : List α) :
    joinSegments sep (rest.splitOn sep) = sep :: rest := by
  induction rest with
  | nil => simp
  | cons item rest ih =>
    rw [splitOn_cons]
    by_cases separates : item = sep
    · simp [separates, ih]
    cases pieces : rest.splitOn sep with
    | nil => simp [pieces] at ih
    | cons first others =>
      simp only [pieces, joinSegments_cons, List.cons.injEq, true_and] at ih
      simp [separates, ih]

/-- No segment contains the separator. -/
theorem sep_notMem_splitOn [DecidableEq α] (sep : α) (rest : List α) :
    ∀ segment ∈ rest.splitOn sep, sep ∉ segment := by
  induction rest with
  | nil => simp
  | cons item rest ih =>
    rw [splitOn_cons]
    by_cases separates : item = sep
    · simpa [separates] using ih
    cases pieces : rest.splitOn sep with
    | nil => simp
    | cons first others =>
      have different : ¬ sep = item := fun same => separates same.symm
      simpa [pieces, separates, different] using ih

section Words

variable {word segment : List α} {segments : List (List α)}

theorem separated_infix_append (plain : sep ∉ segment) (tail : List α) :
    sep :: word <:+: segment ++ tail ↔ sep :: word <:+: tail := by
  induction segment with
  | nil => simp
  | cons item segment ih =>
    simp only [List.mem_cons, not_or] at plain
    simp [List.infix_cons_iff, plain.1, ih plain.2]

theorem separated_suffix_append (plain : sep ∉ segment) (tail : List α) :
    sep :: word <:+ segment ++ tail ↔ sep :: word <:+ tail := by
  induction segment with
  | nil => simp
  | cons item segment ih =>
    simp only [List.mem_cons, not_or] at plain
    simp [List.suffix_cons_iff, plain.1, ih plain.2]

theorem closed_prefix_iff (bare : sep ∉ word) (plain : sep ∉ segment) :
    word ++ [sep] <+: segment ++ joinSegments sep segments ↔
      word = segment ∧ segments ≠ [] := by
  induction word generalizing segment with
  | nil =>
    cases segment with
    | nil => cases segments <;> simp
    | cons item segment =>
      simp only [List.mem_cons, not_or] at plain
      simp [plain.1]
  | cons letter word ih =>
    simp only [List.mem_cons, not_or] at bare
    have different : ¬ letter = sep := fun same => bare.1 same.symm
    cases segment with
    | nil => cases segments <;> simp [different]
    | cons item segment =>
      simp only [List.mem_cons, not_or] at plain
      simp [ih bare.2 plain.2, and_assoc]

/-- An enclosed word is a segment other than the last. -/
theorem enclosed_infix_iff (bare : sep ∉ word)
    (plain : ∀ segment ∈ segments, sep ∉ segment) :
    sep :: (word ++ [sep]) <:+: joinSegments sep segments ↔
      word ∈ segments.dropLast := by
  induction segments with
  | nil => simp
  | cons segment segments ih =>
    obtain ⟨first, others⟩ := List.forall_mem_cons.mp plain
    rw [joinSegments_cons, List.infix_cons_iff, List.cons_prefix_cons,
      separated_infix_append first, ih others, closed_prefix_iff bare first]
    cases segments with
    | nil | cons => simp

theorem separated_suffix_iff (bare : sep ∉ word)
    (plain : ∀ segment ∈ segments, sep ∉ segment) :
    sep :: word <:+ joinSegments sep segments ↔
      segments.getLast? = some word := by
  induction segments with
  | nil => simp
  | cons segment segments ih =>
    obtain ⟨first, others⟩ := List.forall_mem_cons.mp plain
    rw [joinSegments_cons, List.suffix_cons_iff,
      separated_suffix_append first, ih others]
    cases segments with
    | nil => simp [eq_comm]
    | cons next segments =>
      -- The rest of the list contains a separator and the word does not.
      have longer :
          ¬ word = segment ++ sep :: (next ++ joinSegments sep segments) := by
        intro same
        simp [same] at bare
      simp [longer]

theorem mem_iff_dropLast_or_getLast? {β : Type*} (items : List β) (item : β) :
    item ∈ items ↔ item ∈ items.dropLast ∨ items.getLast? = some item := by
  cases items using List.reverseRecOn with
  | nil => simp
  | append_singleton front last => simp [eq_comm]

end Words

end QMux.Support
