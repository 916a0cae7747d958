import DiskUsage.Proofs.Entry.Largest

/-!
# A tracker after any offers

Items come to a tracker one by one or many at a time, in any mixture.  Only the items matter: after
any operations the tracker is the one to which all items were offered as one list, and of such a
tracker it is known what it keeps.

* `TopN.Offer`: an operation on a tracker; `TopN.after`: the tracker after operations.
* `after_eq_extend`: operations are one long offer.
* `offers_keep_the_largest`: what is kept, refused, shown as the least and listed at the end.
* `Cut.accepts_iff`: whether an item is accepted is told by how many items at least as large came before.
* `items_are_accepted_by_rank`: so a size that is refused once is refused for good.
-/

namespace DiskUsage.TopN

variable {α : Type} {size : α → Nat}

/-- One operation on a tracker. -/
inductive Offer (α : Type) where
  | push (x : α)
  | extend (xs : List α)

/-- The items that an operation offers, in order. -/
def Offer.items : Offer α → List α
  | push x => [x]
  | extend xs => xs

/-- The tracker after one operation. -/
def take (t : TopN α size) : Offer α → TopN α size
  | .push x => t.push x
  | .extend xs => t.extend xs

/-- The tracker after operations. -/
def after (t : TopN α size) (offers : List (Offer α)) : TopN α size :=
  offers.foldl take t

@[simp] theorem after_nil (t : TopN α size) : t.after [] = t := rfl

@[simp] theorem after_cons (t : TopN α size) (offer : Offer α) (offers : List (Offer α)) :
    t.after (offer :: offers) = (t.take offer).after offers := rfl

theorem extend_append (t : TopN α size) (xs ys : List α) :
    t.extend (xs ++ ys) = (t.extend xs).extend ys := by
  unfold extend
  exact List.foldl_append

theorem take_eq_extend (t : TopN α size) (offer : Offer α) : t.take offer = t.extend offer.items := by
  cases offer <;> rfl

/-- **Operations** are one long offer of all their items. -/
theorem after_eq_extend (t : TopN α size) (offers : List (Offer α)) :
    t.after offers = t.extend (offers.flatMap Offer.items) := by
  induction offers generalizing t with
  | nil => rfl
  | cons offer offers ih =>
    rw [after_cons, ih, take_eq_extend, List.flatMap_cons, extend_append]

/-! ## The least item -/

theorem min?_eq_none_iff (t : TopN α size) : t.min? = none ↔ t.items = [] := by
  unfold min?
  exact List.head?_eq_none_iff

/-- What is shown as the least is kept, and nothing that is kept is smaller. -/
theorem min?_eq_some {t : TopN α size} {least : α} (h : t.min? = some least) :
    least ∈ t.items ∧ ∀ x ∈ t.items, size least ≤ size x := by
  unfold min? at h
  obtain ⟨rest, hitems⟩ := List.head?_eq_some_iff.1 h
  have hsorted := t.sorted
  rw [hitems] at hsorted ⊢
  refine ⟨List.mem_cons_self, fun x hx => ?_⟩
  rcases List.mem_cons.1 hx with rfl | hx
  · exact Nat.le_refl _
  · exact (List.pairwise_cons.1 hsorted).1 x hx

/-! ## What is kept -/

/-- **After any operations** a tracker holds as many of the offered items as it has room for, each as
often as it was offered at most, and none that is smaller than one it does not hold.  It shows a least
one of them unless it is empty, and lists exactly them in descending order.  So the sizes in that list
are the first of all offered sizes in descending order, in whatever order the items came. -/
theorem offers_keep_the_largest (size : α → Nat) (k : Nat) (offers : List (Offer α)) :
    let t := (empty size k).after offers
    let offered := offers.flatMap Offer.items
    (∃ refused, (t.items ++ refused).Perm offered ∧ t.items.length = min offered.length k ∧
      ∀ x ∈ t.items, ∀ y ∈ refused, size y ≤ size x) ∧
    (t.min? = none ↔ t.items = []) ∧
    (∀ least, t.min? = some least → least ∈ t.items ∧ ∀ x ∈ t.items, size least ≤ size x) ∧
    t.sortedDesc.Perm t.items ∧ (t.sortedDesc.Pairwise fun x y => size y ≤ size x) ∧
    ∀ reordered : List α, reordered.Perm offered →
      t.sortedDesc.map size = (descending (reordered.map size)).take k := by
  intro t offered
  have hall : t.sortedDesc = largest size k offered := by
    show ((empty size k).after offers).sortedDesc = _
    rw [after_eq_extend]
    rfl
  obtain ⟨refused, hcut⟩ := cut_largest size k offered
  rw [← hall] at hcut
  refine ⟨⟨refused, ?_, ?_, ?_⟩, min?_eq_none_iff t, fun _ => min?_eq_some, sortedDesc_perm t,
    descending_sortedDesc t, ?_⟩
  · exact ((sortedDesc_perm t).symm.append_right refused).trans hcut.perm
  · rw [← length_sortedDesc]
    exact hcut.length_kept
  · intro x hx y hy
    exact hcut.le_of_mem x (mem_sortedDesc.2 hx) y hy
  · intro reordered hperm
    rw [hcut.map_size, descending_congr (hperm.map size)]

/-- An item that is no larger than the least one does not take its place, and a larger one does. -/
example :
    let t := (empty Prod.snd 2).after [.push ('a', 5), .extend [('b', 5), ('c', 5)], .push ('d', 6)]
    t.sortedDesc = [('d', 6), ('b', 5)] ∧ t.min? = some ('b', 5) := by
  decide

/-! ## Which items are accepted -/

/-- Items as large as this one. -/
def asLarge (size : α → Nat) (x : α) (xs : List α) : Nat :=
  xs.countP fun y => decide (size x ≤ size y)

theorem asLarge_append (x : α) (xs ys : List α) :
    asLarge size x (xs ++ ys) = asLarge size x xs + asLarge size x ys :=
  List.countP_append

theorem asLarge_of_perm {xs ys : List α} (x : α) (h : xs.Perm ys) :
    asLarge size x xs = asLarge size x ys :=
  h.countP_eq _

/-- Of a smaller item there are as many that are as large, or more. -/
theorem asLarge_anti {x y : α} (h : size y ≤ size x) (xs : List α) :
    asLarge size x xs ≤ asLarge size y xs := by
  refine List.countP_mono_left fun z _ hz => ?_
  exact decide_eq_true (Nat.le_trans h (of_decide_eq_true hz))

/-- A tracker that refuses an item is full, and all that it keeps is as large. -/
theorem asLarge_items_of_not_accepts {t : TopN α size} {x : α} (h : t.accepts x = false) :
    t.capacity ≤ asLarge size x t.items := by
  have hall : asLarge size x t.items = t.items.length :=
    List.countP_eq_length.2 fun y hy => decide_eq_true (size_le_of_not_accepts h hy)
  have hfull := of_decide_eq_false (Bool.or_eq_false_iff.1 h).1
  omega

/-- **An item is accepted** iff fewer items than the tracker has room for are as large, among all that
were offered before: those that left it again count as well. -/
theorem Cut.accepts_iff {t : TopN α size} {xs rest : List α}
    (h : Cut size t.capacity xs t.sortedDesc rest) (x : α) :
    t.accepts x = true ↔ asLarge size x xs < t.capacity := by
  have hsplit : asLarge size x xs = asLarge size x t.items + asLarge size x rest := by
    rw [← asLarge_of_perm x h.perm, asLarge_append, asLarge_of_perm x t.sortedDesc_perm]
  cases ha : t.accepts x with
  | false =>
    have hmany := asLarge_items_of_not_accepts ha
    simp only [Bool.false_eq_true, false_iff]
    omega
  | true =>
    simp only [true_iff]
    by_cases hfull : t.items.length < t.capacity
    · obtain rfl := h.rest_eq_nil (by rwa [length_sortedDesc])
      have hle : asLarge size x t.items ≤ t.items.length := List.countP_le_length
      have hnil : asLarge size x ([] : List α) = 0 := rfl
      omega
    · -- the smallest item that is kept is smaller, and so is everything that is not kept
      obtain ⟨least, hitems, hlt⟩ := items_of_accepts_full ha hfull
      have hleast : least ∈ t.sortedDesc := mem_sortedDesc.2 (hitems ▸ List.mem_cons_self)
      have hrest : asLarge size x rest = 0 := by
        refine List.countP_eq_zero.2 fun y hy hxy => ?_
        have hyl := h.le_of_mem least hleast y hy
        have hle := of_decide_eq_true hxy
        omega
      have hkept : asLarge size x t.items ≤ t.remaining.length := by
        rw [hitems, asLarge, List.countP_cons_of_neg (by simpa using hlt)]
        exact List.countP_le_length
      have hlen : t.items.length = t.remaining.length + 1 := by rw [hitems, List.length_cons]
      have hroom := t.length_le
      omega

/-- A tracker after any operations, cut from all that was offered. -/
theorem exists_cut_after (size : α → Nat) (k : Nat) (offers : List (Offer α)) :
    ∃ rest, Cut size k (offers.flatMap Offer.items) ((empty size k).after offers).sortedDesc rest := by
  rw [after_eq_extend]
  exact cut_largest size k _

@[simp] theorem capacity_after (t : TopN α size) (offers : List (Offer α)) :
    (t.after offers).capacity = t.capacity := by
  rw [after_eq_extend]
  generalize offers.flatMap Offer.items = xs
  induction xs generalizing t with
  | nil => rfl
  | cons x xs ih => rw [extend_cons, ih, capacity_push]

theorem accepts_after_iff (size : α → Nat) (k : Nat) (offers : List (Offer α)) (x : α) :
    ((empty size k).after offers).accepts x = true ↔ asLarge size x (offers.flatMap Offer.items) < k := by
  obtain ⟨rest, hcut⟩ := exists_cut_after size k offers
  have hcapacity : ((empty size k).after offers).capacity = k := capacity_after _ _
  have h : Cut size ((empty size k).after offers).capacity (offers.flatMap Offer.items)
      ((empty size k).after offers).sortedDesc rest := hcapacity.symm ▸ hcut
  rw [h.accepts_iff x, hcapacity]

/-- **The answer to an offer**, after any operations: the item is kept iff fewer of the items offered
before than there is room for are as large.  Once an item is refused, nothing of its size or a smaller
one is kept any more, whatever is offered in between. -/
theorem items_are_accepted_by_rank (size : α → Nat) (k : Nat) (before : List (Offer α)) (x : α) :
    let t := (empty size k).after before
    let offered := before.flatMap Offer.items
    (t.accepts x = true ↔ (offered.filter fun y => decide (size x ≤ size y)).length < k) ∧
      (t.accepts x = false → ∀ (between : List (Offer α)) (y : α), size y ≤ size x →
        ((t.push x).after between).accepts y = false) := by
  intro t offered
  have hanswer : t.accepts x = true ↔ asLarge size x offered < k := accepts_after_iff size k before x
  refine ⟨?_, fun hrefused between y hle => ?_⟩
  · rw [hanswer, asLarge, List.countP_eq_length_filter]
  · have hlater : (t.push x).after between = (empty size k).after (before ++ .push x :: between) := by
      show (t.take (.push x)).after between = _
      rw [after, after, List.foldl_append]
      rfl
    have hmany : k ≤ asLarge size x offered := by
      rw [← Bool.not_eq_true, hanswer] at hrefused
      exact Nat.not_lt.1 hrefused
    have hmore : asLarge size x offered
        ≤ asLarge size y ((before ++ .push x :: between).flatMap Offer.items) := by
      rw [List.flatMap_append, asLarge_append]
      exact Nat.le_trans (asLarge_anti hle offered) (Nat.le_add_right _ _)
    rw [hlater, ← Bool.not_eq_true, accepts_after_iff]
    omega

theorem third_five_is_refused_for_good :
    let t := (empty Prod.snd 2).after [.push ('a', 5), .extend [('b', 5), ('c', 1)]]
    t.accepts ('d', 5) = false ∧ (t.push ('d', 5)).accepts ('e', 6) = true ∧
      ((t.push ('d', 5)).after [.push ('e', 6)]).accepts ('f', 5) = false := by
  intro t
  have hrefused : t.accepts ('d', 5) = false := by decide
  have hanswers := items_are_accepted_by_rank Prod.snd 2
    [.push ('a', 5), .extend [('b', 5), ('c', 1)]] ('d', 5)
  exact ⟨hrefused, by decide, hanswers.2 hrefused [.push ('e', 6)] ('f', 5) (by decide)⟩

end DiskUsage.TopN
