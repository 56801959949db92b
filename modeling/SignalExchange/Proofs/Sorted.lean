import Mathlib.Data.List.Sort

/-! Sorting keeps the order of items that the comparison does not tell apart. -/

set_option autoImplicit false

namespace SignalExchange

variable {α : Type} {le : α → α → Bool}
  (trans : ∀ a b c : α, le a b = true → le b c = true → le a c = true)
  (total : ∀ a b : α, (le a b || le b a) = true)

include trans total

theorem filter_mergeSort {items : List α} {keep : α → Bool}
    (level : (items.filter keep).Pairwise fun a b => le a b = true) :
    (items.mergeSort le).filter keep = items.filter keep := by
  have kept := (List.sublist_mergeSort trans total level List.filter_sublist).filter keep
  rw [List.filter_filter] at kept
  simp only [Bool.and_self] at kept
  refine (kept.eq_of_length ?_).symm
  exact ((List.mergeSort_perm items le).filter keep).length_eq.symm

/-- What holds of each item and those behind it still holds where the comparison goes both ways. -/
theorem pairwise_mergeSort_and {items : List α} {before : α → α → Prop}
    (ordered : items.Pairwise before) :
    (items.mergeSort le).Pairwise fun a b => le a b = true ∧ (le b a = true → before a b) := by
  have sorted := List.pairwise_mergeSort trans total items
  refine sorted.and (List.pairwise_iff_forall_sublist.2 fun {a b} behind above => ?_)
  have below : le a b = true := List.pairwise_iff_forall_sublist.1 sorted behind
  have itself : le a a = true := trans a b a below above
  -- The items that the comparison does not tell from the first keep their places.
  let level := fun c => le a c && le c a
  have same : (items.mergeSort le).filter level = items.filter level := by
    refine filter_mergeSort trans total (List.pairwise_of_forall_mem_list fun c left d right => ?_)
    have left := List.of_mem_filter left
    have right := List.of_mem_filter right
    simp only [level, Bool.and_eq_true] at left right
    exact trans c a d left.2 right.1
  have both : [a, b].filter level = [a, b] := by simp [level, below, above, itself]
  have among := behind.filter level
  rw [both, same] at among
  exact List.pairwise_iff_forall_sublist.1 ordered (among.trans List.filter_sublist)

end SignalExchange
