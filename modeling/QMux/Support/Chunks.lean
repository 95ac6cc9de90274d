import Mathlib.Data.List.Flatten
import Mathlib.Data.Finset.Insert

/-!
# Cutting a list into fixed-size chunks

Chunk `k` of a list holds the entries from `k * size` up to the next multiple
of `size`, or up to the end.  The chunks that cover a list concatenate to it.
Pieces that arrive in any order are collected in a list of optional slots.
-/

namespace QMux.Support

variable {α : Type*}

/-- The entries of `data` from `start` up to `stop`. -/
def slice (data : List α) (start stop : Nat) : List α :=
  (data.drop start).take (stop - start)

/-- The `index`-th block of `size` entries. -/
def chunk (size : Nat) (data : List α) (index : Nat) : List α :=
  (data.drop (index * size)).take size

@[simp] theorem length_chunk (size : Nat) (data : List α) (index : Nat) :
    (chunk size data index).length = min size (data.length - index * size) := by
  simp [chunk]

theorem length_chunk_le (size : Nat) (data : List α) (index : Nat) :
    (chunk size data index).length ≤ size := by
  rw [length_chunk]
  exact Nat.min_le_left _ _

theorem slice_eq_chunk (size : Nat) (data : List α) (index : Nat) :
    slice data (min (index * size) data.length)
        (min (min (index * size) data.length + size) data.length) =
      chunk size data index := by
  unfold slice chunk
  by_cases inside : index * size ≤ data.length
  · rw [Nat.min_eq_left inside]
    by_cases full : index * size + size ≤ data.length
    · rw [Nat.min_eq_left full, Nat.add_sub_cancel_left]
    · rw [Nat.min_eq_right (by omega), List.take_of_length_le (by simp),
        List.take_of_length_le (by
          rw [List.length_drop]
          omega)]
  · rw [Nat.min_eq_right (by omega), Nat.min_eq_right (by omega)]
    simp [List.drop_eq_nil_of_le (Nat.le_of_not_le inside)]

theorem flatMap_chunk_range_eq_take (size : Nat) (data : List α) (count : Nat) :
    (List.range count).flatMap (chunk size data) =
      data.take (count * size) := by
  induction count with
  | zero => simp
  | succ count ih =>
    rw [List.range_succ, List.flatMap_append, ih, List.flatMap_singleton,
      chunk, Nat.succ_mul, List.take_add]

variable {size length : Nat}

theorem flatMap_chunk_range {count : Nat} {data : List α}
    (covers : data.length ≤ count * size) :
    (List.range count).flatMap (chunk size data) = data := by
  rw [flatMap_chunk_range_eq_take, List.take_of_length_le covers]

/-- The number of blocks of `size` entries needed for `length` entries. -/
def chunkCount (size length : Nat) : Nat := (length + size - 1) / size

theorem le_chunkCount_mul (positive : 0 < size) (length : Nat) :
    length ≤ chunkCount size length * size := by
  unfold chunkCount
  have remainder := Nat.div_add_mod (length + size - 1) size
  have small := Nat.mod_lt (length + size - 1) positive
  rw [Nat.mul_comm] at remainder
  omega

theorem mul_lt_of_lt_chunkCount {index : Nat}
    (inside : index < chunkCount size length) : index * size < length := by
  unfold chunkCount at inside
  have positive : 0 < size := by
    by_contra zero
    have : size = 0 := by omega
    simp [this] at inside
  have reached : (index + 1) * size ≤ length + size - 1 :=
    (Nat.le_div_iff_mul_le positive).mp inside
  rw [Nat.succ_mul] at reached
  omega

theorem chunkCount_le_iff {bound : Nat} (positive : 0 < size) :
    chunkCount size length ≤ bound ↔ length ≤ bound * size := by
  constructor
  · intro few
    exact Nat.le_trans (le_chunkCount_mul positive length)
      (Nat.mul_le_mul_right size few)
  · intro short
    by_contra many
    have past := mul_lt_of_lt_chunkCount (Nat.lt_of_not_le many)
    omega

/-! ## Collecting pieces -/

section Slots

variable {β : Type*}

/-- The slots of `count` pieces, those in `seen` filled in. -/
def slots (piece : Nat → β) (count : Nat) (seen : Finset Nat) :
    List (Option β) :=
  (List.range count).map fun index =>
    if index ∈ seen then some (piece index) else none

@[simp] theorem length_slots (piece : Nat → β) (count : Nat)
    (seen : Finset Nat) : (slots piece count seen).length = count := by
  simp [slots]

theorem slots_empty (piece : Nat → β) (count : Nat) :
    slots piece count ∅ = List.replicate count none := by
  simp [slots, List.map_const']

variable {count index : Nat}

theorem getElem?_slots (piece : Nat → β) (inside : index < count)
    (seen : Finset Nat) :
    (slots piece count seen)[index]? =
      some (if index ∈ seen then some (piece index) else none) := by
  simp [slots, inside]

theorem set_slots (piece : Nat → β) (inside : index < count)
    (seen : Finset Nat) :
    (slots piece count seen).set index (some (piece index)) =
      slots piece count (insert index seen) := by
  apply List.ext_getElem?
  intro position
  by_cases same : index = position
  · subst same
    rw [List.getElem?_set_self (by simpa using inside),
      getElem?_slots piece inside, if_pos (Finset.mem_insert_self _ _)]
  rw [List.getElem?_set_ne same]
  by_cases positionInside : position < count
  · rw [getElem?_slots piece positionInside,
      getElem?_slots piece positionInside]
    simp [Ne.symm same]
  · rw [List.getElem?_eq_none (by simpa using positionInside),
      List.getElem?_eq_none (by simpa using positionInside)]

theorem flatMap_slots_of_full (piece : Nat → List β) {seen : Finset Nat}
    (full : ∀ index < count, index ∈ seen) :
    (slots piece count seen).flatMap (fun slot => slot.getD []) =
      (List.range count).flatMap piece := by
  rw [slots, List.flatMap_map]
  apply List.flatMap_congr
  intro index member
  rw [if_pos (full index (List.mem_range.mp member))]
  rfl

end Slots

end QMux.Support
