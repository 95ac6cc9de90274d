import Mathlib.Data.Finmap
import Mathlib.Data.Finset.Card
import Mathlib.Data.List.Sort

/-!
# Finite maps with one value type

Mathlib's `Finmap` at a constant family, with the few operations a program
uses: read, write, delete, count, and list the values.
-/

namespace QMux.Support

open Finmap

/-- A finite map from `κ` to `ν`. -/
structure FiniteMap (κ ν : Type*) where
  toFinmap : Finmap fun _ : κ => ν

namespace FiniteMap

variable {κ ν : Type*}

instance : EmptyCollection (FiniteMap κ ν) := ⟨⟨∅⟩⟩

/-- The number of keys. -/
def size (entries : FiniteMap κ ν) : Nat := entries.toFinmap.keys.card

/-- The values, each as often as it occurs. -/
def values (entries : FiniteMap κ ν) : Multiset ν :=
  entries.toFinmap.entries.map Sigma.snd

@[simp] theorem size_empty : (∅ : FiniteMap κ ν).size = 0 := rfl

@[simp] theorem values_empty : (∅ : FiniteMap κ ν).values = 0 := rfl

/-- The keys with their values. -/
def entries (entries : FiniteMap κ ν) : Multiset (κ × ν) :=
  entries.toFinmap.entries.map fun entry => (entry.1, entry.2)

theorem card_values (entries : FiniteMap κ ν) :
    Multiset.card entries.values = entries.size := by
  unfold values size
  rw [Multiset.card_map]
  exact (Multiset.card_map Sigma.fst _).symm

variable [DecidableEq κ]

def get (entries : FiniteMap κ ν) (key : κ) : Option ν :=
  entries.toFinmap.lookup key

def put (entries : FiniteMap κ ν) (key : κ) (value : ν) : FiniteMap κ ν :=
  ⟨entries.toFinmap.insert key value⟩

def delete (entries : FiniteMap κ ν) (key : κ) : FiniteMap κ ν :=
  ⟨entries.toFinmap.erase key⟩

/-- The key is present. -/
def has (entries : FiniteMap κ ν) (key : κ) : Bool := (entries.get key).isSome

@[ext] theorem ext {left right : FiniteMap κ ν}
    (same : ∀ key, left.get key = right.get key) : left = right := by
  cases left
  cases right
  exact congrArg FiniteMap.mk (ext_lookup same)

@[simp] theorem get_empty (key : κ) : (∅ : FiniteMap κ ν).get key = none :=
  lookup_empty key

theorem get_put (entries : FiniteMap κ ν) (key : κ) (value : ν) (other : κ) :
    (entries.put key value).get other =
      if other = key then some value else entries.get other := by
  by_cases same : other = key
  · subst same
    rw [if_pos rfl]
    exact lookup_insert _
  · rw [if_neg same]
    exact lookup_insert_of_ne _ same

@[simp] theorem get_put_self (entries : FiniteMap κ ν) (key : κ) (value : ν) :
    (entries.put key value).get key = some value := by
  rw [get_put, if_pos rfl]

variable {key other : κ} {value : ν}

theorem get_put_of_ne (entries : FiniteMap κ ν) (value : ν)
    (different : other ≠ key) :
    (entries.put key value).get other = entries.get other := by
  rw [get_put, if_neg different]

theorem get_delete (entries : FiniteMap κ ν) (key other : κ) :
    (entries.delete key).get other =
      if other = key then none else entries.get other := by
  by_cases same : other = key
  · subst same
    rw [if_pos rfl]
    exact lookup_erase _ _
  · rw [if_neg same]
    exact lookup_erase_ne same

@[simp] theorem get_delete_self (entries : FiniteMap κ ν) (key : κ) :
    (entries.delete key).get key = none := by
  rw [get_delete, if_pos rfl]

theorem get_delete_of_ne (entries : FiniteMap κ ν) (different : other ≠ key) :
    (entries.delete key).get other = entries.get other := by
  rw [get_delete, if_neg different]

variable {entries : FiniteMap κ ν}

theorem get_of_get_delete
    (found : (entries.delete key).get other = some value) :
    entries.get other = some value := by
  rw [get_delete] at found
  split at found
  · cases found
  · exact found

private theorem mem_keys_iff :
    key ∈ entries.toFinmap.keys ↔ entries.get key ≠ none := by
  rw [mem_keys, Ne, get, lookup_eq_none, not_not]

theorem size_put_of_absent (value : ν) (absent : entries.get key = none) :
    (entries.put key value).size = entries.size + 1 := by
  have keys : (entries.put key value).toFinmap.keys =
      insert key entries.toFinmap.keys := by
    ext other
    rw [Finset.mem_insert, mem_keys_iff, mem_keys_iff, get_put]
    by_cases same : other = key <;> simp [same]
  unfold size
  rw [keys, Finset.card_insert_of_notMem]
  rw [mem_keys_iff, not_not]
  exact absent

theorem size_delete_of_present (present : entries.get key = some value) :
    (entries.delete key).size + 1 = entries.size := by
  have member : key ∈ entries.toFinmap.keys := by
    rw [mem_keys_iff, present]
    simp
  have keys : (entries.delete key).toFinmap.keys =
      entries.toFinmap.keys.erase key := keys_erase key _
  unfold size
  rw [keys]
  exact Finset.card_erase_add_one member

theorem delete_of_absent
    (absent : entries.get key = none) : entries.delete key = entries := by
  ext1 other
  rw [get_delete]
  split
  · rename_i same
    rw [same, absent]
  · rfl

theorem size_delete_le (entries : FiniteMap κ ν) (key : κ) :
    (entries.delete key).size ≤ entries.size := by
  cases found : entries.get key with
  | none => rw [delete_of_absent found]
  | some value =>
    have smaller := size_delete_of_present found
    omega

theorem eq_empty_of_get_none
    (absent : ∀ key, entries.get key = none) : entries = ∅ := by
  ext1 key
  rw [absent key, get_empty]

theorem mem_values_iff :
    value ∈ entries.values ↔ ∃ key, entries.get key = some value := by
  unfold values
  rw [Multiset.mem_map]
  constructor
  · rintro ⟨⟨key, found⟩, member, rfl⟩
    exact ⟨key, lookup_eq_some_iff.mpr member⟩
  · rintro ⟨key, found⟩
    exact ⟨⟨key, value⟩, lookup_eq_some_iff.mp found, rfl⟩

theorem values_put_of_absent (value : ν) (absent : entries.get key = none) :
    (entries.put key value).values = value ::ₘ entries.values := by
  have missing : key ∉ entries.toFinmap := lookup_eq_none.mp absent
  unfold values put
  rw [entries_insert_of_notMem missing, Multiset.map_cons]

theorem values_of_present (present : entries.get key = some value) :
    entries.values = value ::ₘ (entries.delete key).values := by
  have restored : (entries.delete key).put key value = entries := by
    ext1 other
    rw [get_put, get_delete]
    split
    · rename_i same
      rw [same, present]
    · rfl
  rw [← values_put_of_absent value (get_delete_self entries key), restored]

theorem count_values_put [DecidableEq ν] (entries : FiniteMap κ ν) (key : κ)
    (value other : ν) :
    (entries.put key value).values.count other +
        (if entries.get key = some other then 1 else 0) =
      entries.values.count other + if value = other then 1 else 0 := by
  cases found : entries.get key with
  | none =>
    rw [values_put_of_absent value found, Multiset.count_cons]
    simp [eq_comm]
  | some old =>
    have rewritten : entries.put key value =
        (entries.delete key).put key value := by
      ext1 each
      rw [get_put, get_put, get_delete]
      split <;> rfl
    rw [rewritten, values_put_of_absent value (get_delete_self entries key),
      values_of_present found, Multiset.count_cons, Multiset.count_cons]
    simp only [Option.some.injEq, eq_comm]
    omega

/-! ## Entries -/

theorem mem_entries_iff :
    (key, value) ∈ entries.entries ↔ entries.get key = some value := by
  unfold FiniteMap.entries get
  rw [Multiset.mem_map, lookup_eq_some_iff]
  constructor
  · rintro ⟨⟨other, found⟩, member, same⟩
    cases same
    exact member
  · intro member
    exact ⟨⟨key, value⟩, member, rfl⟩

omit [DecidableEq κ] in
theorem nodup_map_fst_entries (entries : FiniteMap κ ν) :
    (entries.entries.map Prod.fst).Nodup := by
  unfold FiniteMap.entries
  rw [Multiset.map_map]
  exact entries.toFinmap.nodupKeys.nodup_keys

omit [DecidableEq κ] in
theorem map_snd_entries (entries : FiniteMap κ ν) :
    entries.entries.map Prod.snd = entries.values := by
  unfold FiniteMap.entries values
  rw [Multiset.map_map]
  rfl

theorem nodup_values
    (injective : ∀ key other value, entries.get key = some value →
      entries.get other = some value → key = other) :
    entries.values.Nodup := by
  rw [← map_snd_entries]
  apply Multiset.Nodup.map_on _ entries.nodup_map_fst_entries.of_map
  rintro ⟨key, value⟩ member ⟨other, _⟩ memberToo rfl
  have same : key = other := injective key other value
    (mem_entries_iff.mp member) (mem_entries_iff.mp memberToo)
  rw [same]

/-- Keep the entries whose value passes a test. -/
def filter (keep : ν → Bool) (entries : FiniteMap κ ν) : FiniteMap κ ν :=
  ⟨⟨entries.toFinmap.entries.filter fun entry => keep entry.2, by
    have keys : entries.toFinmap.entries.keys.Nodup :=
      entries.toFinmap.nodupKeys.nodup_keys
    rw [← Multiset.nodup_keys]
    exact Multiset.nodup_of_le
      (Multiset.map_le_map (Multiset.filter_le _ _)) keys⟩⟩

omit [DecidableEq κ] in
theorem values_filter (keep : ν → Bool) (entries : FiniteMap κ ν) :
    (entries.filter keep).values = entries.values.filter fun value =>
      keep value := by
  unfold values filter
  rw [Multiset.filter_map]
  rfl

theorem get_filter (keep : ν → Bool) (entries : FiniteMap κ ν) (key : κ) :
    (entries.filter keep).get key = (entries.get key).filter keep := by
  have member : ∀ value, (entries.filter keep).get key = some value ↔
      entries.get key = some value ∧ keep value = true := by
    intro value
    rw [← mem_entries_iff, ← mem_entries_iff]
    unfold FiniteMap.entries filter
    rw [Multiset.mem_map, Multiset.mem_map]
    constructor
    · rintro ⟨entry, found, same⟩
      obtain ⟨among, kept⟩ := Multiset.mem_filter.mp found
      have value_eq : entry.2 = value := congrArg Prod.snd same
      exact ⟨⟨entry, among, same⟩, value_eq ▸ kept⟩
    · rintro ⟨⟨entry, among, same⟩, kept⟩
      have value_eq : entry.2 = value := congrArg Prod.snd same
      exact ⟨entry, Multiset.mem_filter.mpr ⟨among, value_eq.symm ▸ kept⟩, same⟩
  apply Option.ext
  intro value
  rw [member, Option.filter_eq_some_iff]

theorem filter_eq_empty {keep : ν → Bool}
    (drops : ∀ key value, entries.get key = some value →
      keep value = false) : entries.filter keep = ∅ := by
  apply eq_empty_of_get_none
  intro key
  rw [get_filter]
  cases found : entries.get key with
  | none => rfl
  | some value => simp [Option.filter, drops key value found]

@[simp] theorem filter_empty (keep : ν → Bool) :
    (∅ : FiniteMap κ ν).filter keep = ∅ := by
  apply filter_eq_empty
  intro key value found
  rw [get_empty] at found
  cases found

section Sorted

variable [LinearOrder κ]

/-- The keys in increasing order. -/
def sortedKeys (entries : FiniteMap κ ν) : List κ :=
  Quot.liftOn entries.toFinmap.keys.val (List.insertionSort (· ≤ ·))
    fun left right permuted =>
      ((List.perm_insertionSort _ left).trans
        (permuted.trans (List.perm_insertionSort _ right).symm)).eq_of_pairwise'
          (List.pairwise_insertionSort _ left)
          (List.pairwise_insertionSort _ right)

end Sorted

end FiniteMap

end QMux.Support
