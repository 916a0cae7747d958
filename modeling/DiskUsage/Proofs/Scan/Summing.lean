import Mathlib.Algebra.GroupWithZero.Nat
import DiskUsage.Scan.Run

/-!
# Totals in words

A total that starts again from zero whenever it exceeds a word is the remainder of the sum.

* `Number.foldl_wrap_add`: sizes that are added one after the other.
* `Number.wrap_sum_map_wrap`: sizes of which only the remainders are known.
* `totalSize_eq`: the total of all children.
-/

namespace DiskUsage

namespace Number

theorem foldl_wrap_add (sizes : List Nat) (n : Nat) :
    sizes.foldl (fun total size => wrap (total + size)) (wrap n) = wrap (n + sizes.sum) := by
  induction sizes generalizing n with
  | nil => rfl
  | cons size sizes ih => rw [List.foldl_cons, wrap_wrap_add, ih, List.sum_cons, Nat.add_assoc]

theorem wrap_sum_map_wrap (sizes : List Nat) : wrap (sizes.map wrap).sum = wrap sizes.sum := by
  induction sizes with
  | nil => rfl
  | cons n sizes ih =>
    rw [List.map_cons, List.sum_cons, List.sum_cons]
    exact wrap_add_congr (wrap_wrap n) ih

end Number

/-- The total is the sum of what the children are listed with, in a word. -/
theorem totalSize_eq (children : List SizedChild) :
    totalSize children
      = Number.wrap ((children.filterMap SizedChild.listed?).map DirEntry.size).sum := by
  have hfold := Number.foldl_wrap_add ((children.filterMap SizedChild.listed?).map DirEntry.size) 0
  rwa [Number.wrap_zero, Nat.zero_add] at hfold

theorem totalSize_lt (children : List SizedChild) : totalSize children < Number.wordCount := by
  rw [totalSize_eq]
  exact Number.wrap_lt _

end DiskUsage
