/-!
# The largest of many

A tracker is offered items one after the other and keeps the largest of them, up to its capacity.
It keeps them in order, the smallest first; once it is full, an item has to be larger than the
smallest to take its place.

* `TopN.push`: offer an item.
* `TopN.sortedDesc`: what is kept, the largest first.
* `length_push`: how many items are kept.
-/

namespace DiskUsage

/-- Put an item before the first one that is larger. -/
def insertAscending {α : Type} (size : α → Nat) (x : α) : List α → List α
  | [] => [x]
  | y :: ys => if size x < size y then x :: y :: ys else y :: insertAscending size x ys

@[simp] theorem length_insertAscending {α : Type} (size : α → Nat) (x : α) (ys : List α) :
    (insertAscending size x ys).length = ys.length + 1 := by
  induction ys with
  | nil => rfl
  | cons y ys ih => simp only [insertAscending]; split <;> simp [ih]

/-- Inserting adds the item and loses none. -/
theorem insertAscending_perm {α : Type} (size : α → Nat) (x : α) (ys : List α) :
    (insertAscending size x ys).Perm (x :: ys) := by
  induction ys with
  | nil => exact List.Perm.refl _
  | cons y ys ih =>
    simp only [insertAscending]
    split
    · exact List.Perm.refl _
    · exact (List.Perm.cons y ih).trans (List.Perm.swap x y ys)

theorem mem_insertAscending {α : Type} {size : α → Nat} {x z : α} {ys : List α} :
    z ∈ insertAscending size x ys ↔ z = x ∨ z ∈ ys := by
  simp [(insertAscending_perm size x ys).mem_iff]

theorem pairwise_insertAscending {α : Type} {size : α → Nat} (x : α) {ys : List α}
    (h : ys.Pairwise fun a b => size a ≤ size b) :
    (insertAscending size x ys).Pairwise fun a b => size a ≤ size b := by
  induction ys with
  | nil => simp [insertAscending]
  | cons y ys ih =>
    have hy := List.pairwise_cons.1 h
    simp only [insertAscending]
    split
    · next hlt =>
      refine List.pairwise_cons.2 ⟨fun z hz => ?_, h⟩
      rcases List.mem_cons.1 hz with rfl | hz
      · exact Nat.le_of_lt hlt
      · exact Nat.le_trans (Nat.le_of_lt hlt) (hy.1 z hz)
    · next hge =>
      refine List.pairwise_cons.2 ⟨fun z hz => ?_, ih hy.2⟩
      rcases mem_insertAscending.1 hz with rfl | hz
      · exact Nat.not_lt.1 hge
      · exact hy.1 z hz

/-- The largest items offered so far, at most `capacity` of them, the smallest first. -/
structure TopN (α : Type) (size : α → Nat) where
  capacity : Nat
  items : List α
  sorted : items.Pairwise fun a b => size a ≤ size b
  length_le : items.length ≤ capacity

namespace TopN

variable {α : Type} {size : α → Nat}

/-- A tracker that was offered nothing. -/
def empty (size : α → Nat) (capacity : Nat) : TopN α size :=
  ⟨capacity, [], List.Pairwise.nil, Nat.zero_le _⟩

/-- The smallest item kept. -/
def min? (t : TopN α size) : Option α :=
  t.items.head?

/-- A tracker that is full keeps an item only if it is larger than the smallest. -/
def accepts (t : TopN α size) (x : α) : Bool :=
  decide (t.items.length < t.capacity) || t.min?.any fun least => decide (size least < size x)

/-- What stays when one more item is kept: all, or all but the smallest. -/
def remaining (t : TopN α size) : List α :=
  if t.items.length < t.capacity then t.items else t.items.tail

theorem length_remaining {t : TopN α size} {x : α} (h : t.accepts x = true) :
    t.remaining.length + 1 = min (t.items.length + 1) t.capacity := by
  have hle := t.length_le
  unfold remaining
  split
  · next hlt => omega
  · next hge =>
    have hne : t.items ≠ [] := by
      intro hn
      simp [accepts, min?, hn] at h hge
      omega
    have hpos := List.length_pos_iff.2 hne
    rw [List.length_tail]
    omega

/-- Offer an item. -/
def push (t : TopN α size) (x : α) : TopN α size :=
  if h : t.accepts x = true then
    { t with
      items := insertAscending size x t.remaining
      sorted := pairwise_insertAscending x (by
        unfold remaining
        split
        · exact t.sorted
        · exact t.sorted.tail)
      length_le := by
        rw [length_insertAscending, length_remaining h]
        omega }
  else t

/-- Offer items one after the other. -/
def extend (t : TopN α size) (xs : List α) : TopN α size :=
  xs.foldl push t

/-- What is kept, the largest first. -/
def sortedDesc (t : TopN α size) : List α :=
  t.items.reverse

/-- What a tracker keeps of a list. -/
def largest (size : α → Nat) (capacity : Nat) (xs : List α) : List α :=
  ((empty size capacity).extend xs).sortedDesc

@[simp] theorem capacity_push (t : TopN α size) (x : α) : (t.push x).capacity = t.capacity := by
  unfold push
  split <;> rfl

@[simp] theorem extend_nil (t : TopN α size) : t.extend [] = t := rfl

@[simp] theorem extend_cons (t : TopN α size) (x : α) (xs : List α) :
    t.extend (x :: xs) = (t.push x).extend xs := rfl

theorem items_push {t : TopN α size} {x : α} (h : t.accepts x = true) :
    (t.push x).items = insertAscending size x t.remaining := by
  simp [push, h]

theorem push_of_not_accepts {t : TopN α size} {x : α} (h : t.accepts x = false) :
    t.push x = t := by
  simp [push, h]

/-- Offering an item makes the tracker longer by one until it is full. -/
theorem length_push (t : TopN α size) (x : α) :
    (t.push x).items.length = min (t.items.length + 1) t.capacity := by
  cases h : t.accepts x with
  | true => rw [items_push h, length_insertAscending, length_remaining h]
  | false =>
    have hle := t.length_le
    rw [push_of_not_accepts h]
    simp only [accepts, Bool.or_eq_false_iff, decide_eq_false_iff_not] at h
    omega

end TopN

end DiskUsage
