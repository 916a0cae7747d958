/-!
# Lists and texts in order

Lists are ordered by the order of their items: the first items that differ decide, and a list comes
before those that go on after it.  Texts are ordered by the code points of their characters.

* `lexAtMost_total`, `lexAtMost_trans`, `eq_of_lexAtMost`: the order of lists is a linear order if
  that of the items is one.
* `Text.atMost`, `Text.sortedSet`: texts in order, and a set of them as a list.
-/

namespace DiskUsage

/-- The order of lists that an order of their items gives: the first items that differ decide, and a
list comes before those that go on after it. -/
def lexAtMost {α : Type} (le : α → α → Bool) : List α → List α → Bool
  | [], _ => true
  | _ :: _, [] => false
  | a :: as, b :: bs => le a b && (!le b a || lexAtMost le as bs)

theorem lexAtMost_total {α : Type} {le : α → α → Bool}
    (total : ∀ a b, le a b = true ∨ le b a = true) (as bs : List α) :
    lexAtMost le as bs = true ∨ lexAtMost le bs as = true := by
  induction as generalizing bs with
  | nil => exact .inl rfl
  | cons a as ih =>
    cases bs with
    | nil => exact .inr rfl
    | cons b bs =>
      have h := total a b
      have hr := ih bs
      cases hab : le a b <;> cases hba : le b a <;> simp_all [lexAtMost]

theorem lexAtMost_trans {α : Type} {le : α → α → Bool}
    (trans : ∀ a b c, le a b = true → le b c = true → le a c = true) {as bs cs : List α}
    (h : lexAtMost le as bs = true) (k : lexAtMost le bs cs = true) :
    lexAtMost le as cs = true := by
  induction as generalizing bs cs with
  | nil => rfl
  | cons a as ih =>
    cases bs with
    | nil => simp [lexAtMost] at h
    | cons b bs =>
      cases cs with
      | nil => simp [lexAtMost] at k
      | cons c cs =>
        simp only [lexAtMost, Bool.and_eq_true, Bool.or_eq_true, Bool.not_eq_true'] at *
        refine ⟨trans _ _ _ h.1 k.1, ?_⟩
        by_cases hca : le c a = true
        · have hba := trans _ _ _ k.1 hca
          have hcb := trans _ _ _ hca h.1
          exact .inr (ih (h.2.resolve_left (by simp [hba])) (k.2.resolve_left (by simp [hcb])))
        · exact .inl (by simpa using hca)

theorem eq_of_lexAtMost {α : Type} {le : α → α → Bool}
    (antisymm : ∀ a b, le a b = true → le b a = true → a = b) {as bs : List α}
    (h : lexAtMost le as bs = true) (k : lexAtMost le bs as = true) : as = bs := by
  induction as generalizing bs with
  | nil => cases bs with
    | nil => rfl
    | cons b bs => simp [lexAtMost] at k
  | cons a as ih =>
    cases bs with
    | nil => simp [lexAtMost] at h
    | cons b bs =>
      simp only [lexAtMost, Bool.and_eq_true, Bool.or_eq_true, Bool.not_eq_true'] at h k
      have hab := antisymm a b h.1 k.1
      subst hab
      rw [ih (h.2.resolve_left (by simp [h.1])) (k.2.resolve_left (by simp [h.1]))]

namespace Text

/-- The code points of a text. -/
def codePoints (s : String) : List Nat :=
  s.toList.map Char.toNat

theorem codePoints_injective {s t : String} (h : codePoints s = codePoints t) : s = t := by
  have inj : ∀ {xs ys : List Char}, xs.map Char.toNat = ys.map Char.toNat → xs = ys := by
    intro xs
    induction xs with
    | nil => intro ys h; cases ys <;> simp_all
    | cons x xs ih =>
      intro ys h
      cases ys with
      | nil => simp at h
      | cons y ys =>
        simp only [List.map_cons, List.cons.injEq] at h
        rw [Char.toNat_inj.1 h.1, ih h.2]
  exact String.toList_inj.1 (inj h)

/-- The order of numbers. -/
def natAtMost (m n : Nat) : Bool :=
  decide (m ≤ n)

/-- The text comes before the other one, or is the same. -/
def atMost (s t : String) : Bool :=
  lexAtMost natAtMost (codePoints s) (codePoints t)

/-- A set of texts in order, each once. -/
def sortedSet (texts : List String) : List String :=
  texts.eraseDups.mergeSort atMost

theorem natAtMost_total (m n : Nat) : natAtMost m n = true ∨ natAtMost n m = true := by
  simpa [natAtMost] using Nat.le_total m n

theorem natAtMost_trans (l m n : Nat) (h : natAtMost l m = true) (k : natAtMost m n = true) :
    natAtMost l n = true := by
  simp only [natAtMost, decide_eq_true_eq] at *
  exact Nat.le_trans h k

theorem natAtMost_antisymm (m n : Nat) (h : natAtMost m n = true) (k : natAtMost n m = true) :
    m = n := by
  simp only [natAtMost, decide_eq_true_eq] at *
  exact Nat.le_antisymm h k

theorem atMost_total (s t : String) : atMost s t = true ∨ atMost t s = true :=
  lexAtMost_total natAtMost_total _ _

theorem atMost_trans {r s t : String} (h : atMost r s = true) (k : atMost s t = true) :
    atMost r t = true :=
  lexAtMost_trans natAtMost_trans h k

/-- A set of texts is listed in order. -/
theorem pairwise_sortedSet (texts : List String) :
    (sortedSet texts).Pairwise fun s t => atMost s t = true := by
  have trans : ∀ r s t, atMost r s = true → atMost s t = true → atMost r t = true :=
    fun _ _ _ => atMost_trans
  have total : ∀ s t, (atMost s t || atMost t s) = true := fun s t => by
    rw [Bool.or_eq_true]
    exact atMost_total s t
  exact List.pairwise_mergeSort trans total _

/-- Sorting a set of texts keeps its members. -/
@[simp] theorem mem_sortedSet {texts : List String} {s : String} :
    s ∈ sortedSet texts ↔ s ∈ texts := by
  simp [sortedSet]

end Text

end DiskUsage
