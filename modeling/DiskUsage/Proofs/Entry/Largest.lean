import DiskUsage.Entry.TopN
import Mathlib.Data.List.Sort

/-!
# What a tracker keeps

A tracker sees one item at a time, and yet it ends with the largest of all that it was offered.  To
say so, the offered items are cut in two: those kept, in descending order, and the rest, none of
which is larger than a kept one.  Every offer keeps such a cut.

* `TopN.Cut`: a list cut into its largest items and the rest; `cut_take`: it is cut by sorting it.
* `cut_push`: an offer keeps the cut; `cut_largest`: so what is kept in the end is a cut.
* `Cut.map_size`: the sizes kept are the first of all sizes in descending order.
* `map_size_largest_of_perm`: so they do not depend on the order of the offers.
-/

open scoped List

namespace DiskUsage.TopN

variable {α : Type} {size : α → Nat}

/-- A list is cut into its `k` largest items, the largest first, and the rest. -/
structure Cut (size : α → Nat) (k : Nat) (xs kept rest : List α) : Prop where
  /-- Nothing is lost, made up or doubled. -/
  perm : (kept ++ rest).Perm xs
  length_kept : kept.length = min xs.length k
  /-- Nothing in the rest is larger than what is kept. -/
  le_of_mem : ∀ x ∈ kept, ∀ y ∈ rest, size y ≤ size x
  sorted : kept.Pairwise fun x y => size y ≤ size x

/-- While there is room, nothing is left out. -/
theorem Cut.rest_eq_nil {k : Nat} {xs kept rest : List α} (h : Cut size k xs kept rest)
    (hk : kept.length < k) : rest = [] := by
  have hlen := h.perm.length_eq
  have hkept := h.length_kept
  rw [List.length_append] at hlen
  exact List.length_eq_zero_iff.1 (by omega)

/-- **In descending order** the first items are the largest. -/
theorem cut_take (k : Nat) {sorted xs : List α} (hsorted : sorted.Pairwise fun x y => size y ≤ size x)
    (hperm : sorted.Perm xs) : Cut size k xs (sorted.take k) (sorted.drop k) where
  perm := by rw [List.take_append_drop]; exact hperm
  length_kept := by rw [List.length_take, hperm.length_eq, Nat.min_comm]
  le_of_mem := by
    have hsplit := hsorted
    rw [← List.take_append_drop k sorted] at hsplit
    exact (List.pairwise_append.1 hsplit).2.2
  sorted := hsorted.take

theorem descending_sortedDesc (t : TopN α size) :
    t.sortedDesc.Pairwise fun x y => size y ≤ size x := by
  rw [sortedDesc, List.pairwise_reverse]
  exact t.sorted

@[simp] theorem length_sortedDesc (t : TopN α size) : t.sortedDesc.length = t.items.length :=
  List.length_reverse

@[simp] theorem mem_sortedDesc {t : TopN α size} {x : α} : x ∈ t.sortedDesc ↔ x ∈ t.items :=
  List.mem_reverse

theorem sortedDesc_perm (t : TopN α size) : t.sortedDesc.Perm t.items :=
  List.reverse_perm _

/-- An item that is refused is no larger than any that is kept. -/
theorem size_le_of_not_accepts {t : TopN α size} {x y : α} (h : t.accepts x = false)
    (hy : y ∈ t.items) : size x ≤ size y := by
  have hs := t.sorted
  unfold accepts min? at h
  cases hi : t.items with
  | nil => simp [hi] at hy
  | cons least tail =>
    rw [hi] at hs hy h
    simp only [List.head?_cons, Option.any_some, Bool.or_eq_false_iff, decide_eq_false_iff_not,
      Nat.not_lt] at h
    rcases List.mem_cons.1 hy with rfl | hy
    · exact h.2
    · exact Nat.le_trans h.2 ((List.pairwise_cons.1 hs).1 y hy)

/-- A full tracker that accepts an item gives up its smallest, which the item is larger than. -/
theorem items_of_accepts_full {t : TopN α size} {x : α} (h : t.accepts x = true)
    (hfull : ¬t.items.length < t.capacity) :
    ∃ least, t.items = least :: t.remaining ∧ size least < size x := by
  have hrem : t.remaining = t.items.tail := if_neg hfull
  rw [accepts, decide_eq_false hfull, Bool.false_or, min?, Option.any_eq_true] at h
  obtain ⟨least, hl, hlt⟩ := h
  refine ⟨least, ?_, of_decide_eq_true hlt⟩
  rw [hrem]
  exact List.eq_cons_of_mem_head? hl

/-- **An offer** keeps the cut: the offered item is kept, or it joins the rest, or it takes the place
of the smallest, which joins the rest. -/
theorem cut_push {t : TopN α size} {xs rest : List α} (h : Cut size t.capacity xs t.sortedDesc rest)
    (x : α) : ∃ rest', Cut size t.capacity (xs ++ [x]) (t.push x).sortedDesc rest' := by
  have hlen : (t.push x).sortedDesc.length = min (xs ++ [x]).length t.capacity := by
    have hkept := h.length_kept
    rw [length_sortedDesc] at hkept
    rw [length_sortedDesc, length_push, List.length_append, List.length_singleton]
    omega
  have hitems : t.items.Perm t.sortedDesc := t.sortedDesc_perm.symm
  cases ha : t.accepts x with
  | false =>
    -- the tracker stays as it is
    rw [push_of_not_accepts ha] at hlen ⊢
    refine ⟨x :: rest, ?_, hlen, ?_, h.sorted⟩
    · exact List.perm_middle.trans ((h.perm.cons x).trans (List.perm_append_singleton x xs).symm)
    · intro a hmem b hb
      rcases List.mem_cons.1 hb with rfl | hb
      · exact size_le_of_not_accepts ha (mem_sortedDesc.1 hmem)
      · exact h.le_of_mem a hmem b hb
  | true =>
    have hpush : (t.push x).sortedDesc.Perm (x :: t.remaining) := by
      refine (sortedDesc_perm _).trans ?_
      rw [items_push ha]
      exact insertAscending_perm size x t.remaining
    by_cases hfull : t.items.length < t.capacity
    · have hrem : t.remaining = t.items := if_pos hfull
      obtain rfl := h.rest_eq_nil (by rwa [length_sortedDesc])
      refine ⟨[], ?_, hlen, by simp, descending_sortedDesc _⟩
      rw [hrem] at hpush
      have hall : t.items.Perm xs := hitems.trans (by simpa using h.perm)
      rw [List.append_nil]
      exact hpush.trans ((hall.cons x).trans (List.perm_append_singleton x xs).symm)
    · obtain ⟨least, hi, hlt⟩ := items_of_accepts_full ha hfull
      have hold : (least :: t.remaining).Perm t.sortedDesc := hi ▸ hitems
      refine ⟨least :: rest, ?_, hlen, ?_, descending_sortedDesc _⟩
      · calc
          (t.push x).sortedDesc ++ least :: rest
          _ ~ x :: t.remaining ++ least :: rest := hpush.append_right _
          _ ~ x :: (least :: t.remaining ++ rest) := List.perm_middle.cons x
          _ ~ x :: (t.sortedDesc ++ rest) := (hold.append_right rest).cons x
          _ ~ x :: xs := h.perm.cons x
          _ ~ xs ++ [x] := (List.perm_append_singleton x xs).symm
      · have hleast : ∀ a ∈ x :: t.remaining, size least ≤ size a := by
          intro a hmem
          rcases List.mem_cons.1 hmem with rfl | hmem
          · exact Nat.le_of_lt hlt
          · exact (List.pairwise_cons.1 (hi ▸ t.sorted)).1 a hmem
        intro a hmem b hb
        have hla := hleast a (hpush.mem_iff.1 hmem)
        rcases List.mem_cons.1 hb with rfl | hb
        · exact hla
        · have hlb := h.le_of_mem least (hold.mem_iff.1 List.mem_cons_self) b hb
          exact Nat.le_trans hlb hla

/-- Any number of offers keep the cut. -/
theorem cut_extend {t : TopN α size} {xs rest : List α}
    (h : Cut size t.capacity xs t.sortedDesc rest) (ys : List α) :
    ∃ rest', Cut size t.capacity (xs ++ ys) (t.extend ys).sortedDesc rest' := by
  induction ys generalizing t xs rest with
  | nil => exact ⟨rest, by simpa using h⟩
  | cons y ys ih =>
    obtain ⟨rest', h'⟩ := cut_push h y
    rw [← capacity_push t y] at h'
    obtain ⟨rest'', h''⟩ := ih h'
    rw [capacity_push, List.append_assoc, List.singleton_append] at h''
    exact ⟨rest'', h''⟩

/-- **What a tracker keeps** are the largest of all items that it was offered. -/
theorem cut_largest (size : α → Nat) (k : Nat) (xs : List α) :
    ∃ rest, Cut size k xs (largest size k xs) rest := by
  have h : Cut size (empty size k).capacity [] (empty size k).sortedDesc [] :=
    ⟨List.Perm.refl _, by simp [empty, sortedDesc], by simp, by simp [empty, sortedDesc]⟩
  exact cut_extend h xs

/-- What a tracker keeps was offered. -/
theorem mem_of_mem_largest {k : Nat} {xs : List α} {x : α} (h : x ∈ largest size k xs) : x ∈ xs := by
  obtain ⟨rest, hcut⟩ := cut_largest size k xs
  exact hcut.perm.subset (List.mem_append_left rest h)

/-! ## Sizes -/

/-- Sizes in descending order. -/
def descending (sizes : List Nat) : List Nat :=
  sizes.mergeSort fun a b => decide (b ≤ a)

theorem descending_perm (sizes : List Nat) : (descending sizes).Perm sizes :=
  List.mergeSort_perm _ _

/-- Sorting puts items in descending order. -/
theorem pairwise_mergeSort (size : α → Nat) (xs : List α) :
    (xs.mergeSort fun a b => decide (size b ≤ size a)).Pairwise fun a b => size b ≤ size a := by
  have h : (xs.mergeSort fun a b => decide (size b ≤ size a)).Pairwise
      fun a b => decide (size b ≤ size a) = true := by
    refine List.pairwise_mergeSort ?_ ?_ xs
    · intro a b c
      simp only [decide_eq_true_eq]
      omega
    · intro a b
      simp only [Bool.or_eq_true, decide_eq_true_eq]
      omega
  exact h.imp fun {a b} hab => of_decide_eq_true hab

theorem pairwise_descending (sizes : List Nat) : (descending sizes).Pairwise fun a b => b ≤ a :=
  pairwise_mergeSort id sizes

/-- There is one way only to put sizes in descending order. -/
theorem eq_descending {sorted sizes : List Nat} (hs : sorted.Pairwise fun a b => b ≤ a)
    (hp : sorted.Perm sizes) : sorted = descending sizes :=
  List.Perm.eq_of_pairwise (fun _ _ _ _ hab hba => Nat.le_antisymm hba hab) hs
    (pairwise_descending sizes) (hp.trans (descending_perm sizes).symm)

theorem descending_congr {xs ys : List Nat} (h : xs.Perm ys) : descending xs = descending ys :=
  eq_descending (pairwise_descending xs) ((descending_perm xs).trans h)

/-- **The sizes kept** are the first of all sizes in descending order. -/
theorem Cut.map_size {k : Nat} {xs kept rest : List α} (h : Cut size k xs kept rest) :
    kept.map size = (descending (xs.map size)).take k := by
  -- the rest, sorted as well, follows after what is kept
  have hrest := descending_perm (rest.map size)
  have hsorted : (kept.map size ++ descending (rest.map size)).Pairwise fun a b => b ≤ a := by
    refine List.pairwise_append.2 ⟨List.pairwise_map.2 h.sorted, pairwise_descending _, ?_⟩
    intro a ha b hb
    obtain ⟨x, hx, rfl⟩ := List.mem_map.1 ha
    obtain ⟨y, hy, rfl⟩ := List.mem_map.1 (hrest.mem_iff.1 hb)
    exact h.le_of_mem x hx y hy
  have hperm : (kept.map size ++ descending (rest.map size)).Perm (xs.map size) := by
    have hmap := h.perm.map size
    rw [List.map_append] at hmap
    exact (hrest.append_left _).trans hmap
  rw [← eq_descending hsorted hperm]
  have hlen := h.length_kept
  by_cases hk : kept.length < k
  · rw [h.rest_eq_nil hk, List.take_of_length_le]
    · simp [descending]
    · simp [descending]
      omega
  · have hk' : (kept.map size).length = k := by
      rw [List.length_map]
      omega
    rw [List.take_append_of_le_length (Nat.le_of_eq hk'.symm), ← hk', List.take_length]

theorem map_size_largest (size : α → Nat) (k : Nat) (xs : List α) :
    (largest size k xs).map size = (descending (xs.map size)).take k := by
  obtain ⟨rest, h⟩ := cut_largest size k xs
  exact h.map_size

/-- The sizes kept do not depend on the order of the offers. -/
theorem map_size_largest_of_perm (k : Nat) {xs ys : List α} (h : xs.Perm ys) :
    (largest size k xs).map size = (largest size k ys).map size := by
  rw [map_size_largest, map_size_largest, descending_congr (h.map size)]

end DiskUsage.TopN
