import Mathlib.Algebra.Order.BigOperators.Group.Finset
import Mathlib.Algebra.Order.Ring.Int

/-!
# Allocated cells

A heap of one kind of object is the list of all objects ever allocated; a
reference is a position in it.  Objects are appended and overwritten, never
removed.  The lemmas say what a write does to the other cells and how it
changes the number of cells with a property.
-/

namespace QMux.Support

variable {α : Type*} {cells : List α} {index : Nat} {old : α}

theorem getElem?_set_eq (found : cells[index]? = some old) (new : α)
    (other : Nat) :
    (cells.set index new)[other]? =
      if other = index then some new else cells[other]? := by
  have inside : index < cells.length := (List.getElem?_eq_some_iff.mp found).1
  by_cases same : other = index
  · subst same
    rw [if_pos rfl, List.getElem?_set_self inside]
  · rw [if_neg same, List.getElem?_set_ne (Ne.symm same)]

theorem set_eq_self (found : cells[index]? = some old) :
    cells.set index old = cells := by
  obtain ⟨inside, rfl⟩ := List.getElem?_eq_some_iff.mp found
  exact List.set_getElem_self inside

theorem set_map_eq_map {β : Type*} {f : α → β} {value : β}
    (same : ∀ cell, cells[index]? = some cell → f cell = value) :
    (cells.map f).set index value = cells.map f := by
  cases found : cells[index]? with
  | none =>
    apply List.set_eq_of_length_le
    rw [List.length_map]
    exact List.getElem?_eq_none_iff.mp found
  | some cell =>
    apply set_eq_self
    rw [List.getElem?_map, found, Option.map_some, same cell found]

theorem getElem?_append_singleton (cells : List α) (new : α) (other : Nat) :
    (cells ++ [new])[other]? =
      if other = cells.length then some new else cells[other]? := by
  by_cases same : other = cells.length
  · subst same
    simp
  rw [if_neg same]
  rcases Nat.lt_or_gt_of_ne same with inside | outside
  · exact List.getElem?_append_left inside
  · rw [List.getElem?_eq_none (by simp; omega),
      List.getElem?_eq_none (by omega)]

variable {new cell : α} {other : Nat}

theorem cases_set (found : cells[index]? = some old)
    (there : (cells.set index new)[other]? = some cell) :
    (other = index ∧ cell = new) ∨
      (other ≠ index ∧ cells[other]? = some cell) := by
  rw [getElem?_set_eq found] at there
  split at there
  · rename_i here
    exact .inl ⟨here, (Option.some.inj there).symm⟩
  · rename_i different
    exact .inr ⟨different, there⟩

theorem cases_append (there : (cells ++ [new])[other]? = some cell) :
    (other = cells.length ∧ cell = new) ∨ cells[other]? = some cell := by
  rw [getElem?_append_singleton] at there
  split at there
  · rename_i here
    exact .inl ⟨here, (Option.some.inj there).symm⟩
  · exact .inr there

theorem getElem?_length_eq_none (cells : List α) :
    cells[cells.length]? = none :=
  List.getElem?_eq_none (Nat.le_refl _)

theorem countP_set_eq (counted : α → Bool)
    (found : cells[index]? = some old) (new : α) :
    (cells.set index new).countP counted + (counted old).toNat =
      cells.countP counted + (counted new).toNat := by
  obtain ⟨inside, value⟩ := List.getElem?_eq_some_iff.mp found
  have positive : (counted old).toNat ≤ cells.countP counted := by
    cases truth : counted old with
    | false => simp
    | true =>
      have member : old ∈ cells := List.mem_of_getElem? found
      exact List.countP_pos_iff.mpr ⟨old, member, truth⟩
  rw [List.countP_set inside, value]
  cases truthOld : counted old <;> cases truthNew : counted new <;>
    simp_all

theorem countP_append_singleton (counted : α → Bool) (cells : List α)
    (new : α) :
    (cells ++ [new]).countP counted =
      cells.countP counted + (counted new).toNat := by
  rw [List.countP_append]
  cases truth : counted new <;> simp [truth]

theorem countP_pos_of_getElem? (counted : α → Bool)
    (found : cells[index]? = some old) (truth : counted old = true) :
    0 < cells.countP counted :=
  List.countP_pos_iff.mpr ⟨old, List.mem_of_getElem? found, truth⟩

theorem sum_map_set_eq (weight : α → Int) (found : cells[index]? = some old)
    (new : α) :
    ((cells.set index new).map weight).sum =
      (cells.map weight).sum - weight old + weight new := by
  induction cells generalizing index with
  | nil => cases found
  | cons head tail ih =>
    cases index with
    | zero =>
      cases found
      simp only [List.set_cons_zero, List.map_cons, List.sum_cons]
      omega
    | succ index =>
      have later : tail[index]? = some old := found
      simp only [List.set_cons_succ, List.map_cons, List.sum_cons]
      rw [ih later]
      omega

theorem sum_map_append_singleton (weight : α → Int) (cells : List α)
    (new : α) :
    ((cells ++ [new]).map weight).sum =
      (cells.map weight).sum + weight new := by
  simp

/-! ## Totals over references -/

theorem sum_range_update {β : Type*} (weight : β → Int) (cells : Nat → β)
    {bound index : Nat} (inside : index < bound) (new : β) :
    ∑ other ∈ Finset.range bound,
        weight (Function.update cells index new other) =
      (∑ other ∈ Finset.range bound, weight (cells other)) -
        weight (cells index) + weight new := by
  have member : index ∈ Finset.range bound := Finset.mem_range.mpr inside
  have others : ∑ other ∈ (Finset.range bound).erase index,
      weight (Function.update cells index new other) =
      ∑ other ∈ (Finset.range bound).erase index, weight (cells other) := by
    apply Finset.sum_congr rfl
    intro other different
    rw [Function.update_of_ne (Finset.ne_of_mem_erase different)]
  rw [← Finset.sum_erase_add _ _ member, ← Finset.sum_erase_add _ _ member,
    others, Function.update_self]
  omega

end QMux.Support
