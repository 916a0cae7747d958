import DiskUsage.Proofs.Sharing.Slots
import Mathlib.Data.List.Pairwise

/-!
# Which slots can be taken

A slot is in the table from when it is made until its first holder releases it, which cannot be
before its measurement ended.  So a path has at most one measurement under way, and nobody takes a
slot after a caller that held it returned.

* `InFlight.Linked`: what the table holds, by what was done; `Step.linked`: every step keeps it.
* `InFlight.Lawful`: all that holds of every reachable state and its history; `lawful_run`.
-/

open scoped List

namespace DiskUsage.InFlight

variable {ε : Type}

/-- Two entries of the table are for different paths, and have different slots. -/
def Distinct (e f : Path × Nat) : Prop :=
  e.1.components ≠ f.1.components ∧ e.2 ≠ f.2

instance : Std.Symm Distinct := ⟨fun _ _ h => ⟨h.1.symm, h.2.symm⟩⟩

/-- The table has the slots that are not filled, and lets go of those that were released. -/
structure Linked (paths : List Path) (h : List (Nat × Deed ε)) (s : InFlight ε) : Prop where
  distinct : s.table.Pairwise Distinct
  agrees : ∀ {e i p}, e ∈ s.table → (i, .takes e.2) ∈ h → paths[i]? = some p →
    e.1.components = p.components
  linked : ∀ {k v}, s.slots[k]? = some v → (∀ size?, v ≠ .filled size?) → ∃ e ∈ s.table, e.2 = k
  unlinked : ∀ {i k size? e}, (i, .releases k size?) ∈ h → e ∈ s.table → e.2 ≠ k
  together : ∀ {i j k p q}, (i, .takes k) ∈ h → (j, .takes k) ∈ h → paths[i]? = some p →
    paths[j]? = some q → p.components = q.components
  later : h.Pairwise fun e f => ∀ k answer, e.2 = .returns k answer → f.2 ≠ .takes k

variable {paths : List Path} {h : List (Nat × Deed ε)} {s t : InFlight ε} {i j k : Nat} {d : Deed ε}

theorem linked_init (paths : List Path) : Linked paths ([] : List (Nat × Deed ε)) (init paths) := by
  refine ⟨by simp, ?_, ?_, ?_, ?_, .nil⟩ <;> simp [init]

theorem mem_table_of_slotOf? {path : Path} (hs : s.slotOf? path = some k) :
    ∃ e ∈ s.table, e.1.components = path.components ∧ e.2 = k := by
  obtain ⟨e, he, rfl⟩ := Option.map_eq_some_iff.1 hs
  have hsame := List.find?_some he
  exact ⟨e, List.mem_of_find?_eq_some he, (Path.sameAs_iff _ _).1 hsame, rfl⟩

theorem slotOf?_eq_none {path : Path} (hs : s.slotOf? path = none) {e : Path × Nat}
    (he : e ∈ s.table) : e.1.components ≠ path.components := by
  have hnot := List.find?_eq_none.1 (Option.map_eq_none_iff.1 hs) e he
  rwa [Path.sameAs_iff] at hnot

theorem Linked.eq_of_path (hl : Linked paths h s) {e f : Path × Nat} (he : e ∈ s.table)
    (hf : f ∈ s.table) (hef : e.1.components = f.1.components) : e = f := by
  by_contra hne
  exact (hl.distinct.forall he hf hne).1 hef

/-- A caller's path is the one that it was given. -/
theorem Followed.path_eq {p : Path} {c : Caller ε} (hf : Followed paths h s)
    (hi : s.callers[i]? = some (p, c)) : paths[i]? = some p := by
  rw [← hf.paths_eq, List.getElem?_map, hi, Option.map_some]

/-- Whoever returned has released its slot, so that the table does not have it. -/
theorem Followed.unlinked_of_returns {answer : Except (Option ε) Nat} (hf : Followed paths h s)
    (hl : Linked paths h s) (hr : (i, .returns k answer) ∈ h) {e : Path × Nat} (he : e ∈ s.table) :
    e.2 ≠ k := by
  have hdid := hf.did (List.getElem?_eq_getElem (hf.present hr))
  obtain ⟨_, size?, -, hreleased, -⟩ := hdid.answered (mem_deedsOf.2 hr)
  exact hl.unlinked (mem_deedsOf.1 hreleased) he

/-- A step that takes no slot. -/
theorem Linked.stay (hl : Linked paths h s) (htakes : ∀ k, d ≠ .takes k) (htable : t.table <+ s.table)
    (hlinked : ∀ {k v}, t.slots[k]? = some v → (∀ size?, v ≠ .filled size?) →
      ∃ e ∈ t.table, e.2 = k)
    (hunlinked : ∀ {k size? e}, d = .releases k size? → e ∈ t.table → e.2 ≠ k) :
    Linked paths (h ++ [(i, d)]) t := by
  have hmem : ∀ {j l}, (j, .takes l) ∈ h ++ [(i, d)] → (j, .takes l) ∈ h := by
    intro j l he
    rcases List.mem_append.1 he with he | he
    · exact he
    · cases List.mem_singleton.1 he
      exact absurd rfl (htakes l)
  refine ⟨hl.distinct.sublist htable, ?_, hlinked, ?_, ?_, ?_⟩
  · intro e j p he hj hp
    exact hl.agrees (htable.subset he) (hmem hj) hp
  · intro j l size? e hj he
    rcases List.mem_append.1 hj with hj | hj
    · exact hl.unlinked hj (htable.subset he)
    · cases List.mem_singleton.1 hj
      exact hunlinked rfl he
  · intro j l k p q hj hk hp hq
    exact hl.together (hmem hj) (hmem hk) hp hq
  · refine List.pairwise_append.2 ⟨hl.later, List.pairwise_singleton _ _, ?_⟩
    intro e he f hf k answer hreturns
    cases List.mem_singleton.1 hf
    exact htakes k

/-- A step that takes a slot, which is then in the table, and which nobody has released. -/
theorem Linked.take {p : Path} {e : Path × Nat} (hl : Linked paths h s) (hp : paths[i]? = some p)
    (he : e ∈ t.table) (hep : e.1.components = p.components) (hdistinct : t.table.Pairwise Distinct)
    (htable : ∀ {f}, f ∈ t.table → f = e ∨ f ∈ s.table)
    (hagrees : ∀ {j q}, (j, .takes e.2) ∈ h → paths[j]? = some q →
      e.1.components = q.components)
    (hlinked : ∀ {k v}, t.slots[k]? = some v → (∀ size?, v ≠ .filled size?) →
      ∃ e ∈ t.table, e.2 = k)
    (hunlinked : ∀ {j size?}, (j, .releases e.2 size?) ∉ h)
    (hnew : ∀ {j answer}, (j, .returns e.2 answer) ∉ h) :
    Linked paths (h ++ [(i, .takes e.2)]) t := by
  -- Whoever took the slot of an entry has its path: this one, or another one from before.
  have hall : ∀ {f j q}, f ∈ t.table → (j, .takes f.2) ∈ h ++ [(i, .takes e.2)] →
      paths[j]? = some q → f.1.components = q.components := by
    intro f j q hf hj hq
    rcases List.mem_append.1 hj with hj | hj
    · rcases htable hf with hfe | hf
      · rw [hfe] at hj ⊢
        exact hagrees hj hq
      · exact hl.agrees hf hj hq
    · obtain ⟨rfl, hslot⟩ : j = i ∧ f.2 = e.2 := by simpa using hj
      have hfe : f = e := by
        by_contra hne
        exact (hdistinct.forall hf he hne).2 hslot
      rw [hfe, hep]
      rw [hp] at hq
      cases hq
      rfl
  refine ⟨hdistinct, hall, hlinked, ?_, ?_, ?_⟩
  · intro j k size? f hj hf hfk
    rcases List.mem_append.1 hj with hj | hj
    · rcases htable hf with hfe | hf
      · rw [← hfk, hfe] at hj
        exact hunlinked hj
      · exact hl.unlinked hj hf hfk
    · cases List.mem_singleton.1 hj
  · intro j l k q r hj hk hq hr
    by_cases hke : k = e.2
    · subst hke
      exact (hall he hj hq).symm.trans (hall he hk hr)
    · have hmem : ∀ {j}, (j, .takes k) ∈ h ++ [(i, .takes e.2)] → (j, .takes k) ∈ h := by
        intro j hj
        simpa [hke] using hj
      exact hl.together (hmem hj) (hmem hk) hq hr
  · refine List.pairwise_append.2 ⟨hl.later, List.pairwise_singleton _ _, ?_⟩
    intro f hf g hg k answer hreturns htakes
    cases List.mem_singleton.1 hg
    cases htakes
    have hmem : (f.1, f.2) ∈ h := hf
    rw [hreturns] at hmem
    exact hnew hmem

/-- One slot changes: it stays in the table, or gets filled. -/
theorem Linked.linked_set (hl : Linked paths h s) {slot : Nat} {w : Slot}
    (hlt : slot < s.slots.length)
    (hw : (∀ size?, w ≠ .filled size?) → ∃ e ∈ s.table, e.2 = slot) {v : Slot}
    (hv : (s.slots.set slot w)[k]? = some v) (hopen : ∀ size?, v ≠ .filled size?) :
    ∃ e ∈ s.table, e.2 = k := by
  by_cases hk : slot = k
  · subst hk
    rw [List.getElem?_set_self hlt] at hv
    cases hv
    exact hw hopen
  · rw [List.getElem?_set_ne hk] at hv
    exact hl.linked hv hopen

theorem Step.linked (hs : Step s i d t) (hf : Followed paths h s) (hk : Kept h s)
    (hl : Linked paths h s) : Linked paths (h ++ [(i, d)]) t := by
  cases hs with
  | takeShared hi hs =>
    obtain ⟨e, he, hpath, rfl⟩ := mem_table_of_slotOf? hs
    exact hl.take (hf.path_eq hi) he hpath hl.distinct .inr (hl.agrees he) hl.linked
      (fun hr => hl.unlinked hr he rfl) (fun hr => hf.unlinked_of_returns hl hr he rfl)
  | @takeNew path hi hs =>
    refine hl.take (e := (path, s.slots.length)) (hf.path_eq hi) (List.mem_cons_self ..) rfl ?_
      List.mem_cons.1 ?_ ?_ ?_ ?_
    · refine List.pairwise_cons.2 ⟨fun f hf => ?_, hl.distinct⟩
      exact ⟨(slotOf?_eq_none hs hf).symm, Nat.ne_of_gt (hk.listed hf)⟩
    · intro j q hj hq
      exact absurd (hk.known hj) (Nat.lt_irrefl _)
    · intro k v hv hopen
      rcases Nat.lt_or_ge k s.slots.length with hlt | hge
      · have hold : s.slots[k]? = some v := by rwa [← List.getElem?_append_left hlt]
        obtain ⟨f, hmem, hslot⟩ := hl.linked hold hopen
        exact ⟨f, List.mem_cons_of_mem _ hmem, hslot⟩
      · have hlt : k < (s.slots ++ [Slot.empty]).length := (List.getElem?_eq_some_iff.1 hv).1
        rw [List.length_append, List.length_singleton] at hlt
        exact ⟨_, List.mem_cons_self .., Nat.le_antisymm hge (Nat.le_of_lt_succ hlt)⟩
    · intro j size? hj
      exact absurd (hk.known hj) (Nat.lt_irrefl _)
    · intro j answer hj
      exact absurd (hk.known hj) (Nat.lt_irrefl _)
  | start hi hs =>
    have hlt := (List.getElem?_eq_some_iff.1 hs).1
    exact hl.stay nofun (.refl _) (hl.linked_set hlt fun _ => hl.linked hs nofun) nofun
  | join hi hs => exact hl.stay nofun (.refl _) hl.linked nofun
  | finish hi =>
    have hlt := (List.getElem?_eq_some_iff.1 (hf.busy hk hi).1).1
    exact hl.stay nofun (.refl _) (hl.linked_set hlt fun hopen => absurd rfl (hopen _)) nofun
  | @release path slot own? size? hi hs =>
    refine hl.stay nofun List.filter_sublist ?_ ?_
    · intro k v hv hopen
      obtain ⟨e, he, rfl⟩ := hl.linked hv hopen
      have hne : e.2 ≠ slot := by
        intro heq
        have hfilled : v = .filled size? := by
          rw [heq] at hv
          exact Option.some.inj (hv.symm.trans hs)
        exact hopen _ hfilled
      exact ⟨e, List.mem_filter.2 ⟨he, by simp [hne]⟩, rfl⟩
    · intro k size? e hd he hek
      cases hd
      obtain ⟨hmem, hnot⟩ := List.mem_filter.1 he
      have htook : .takes slot ∈ deedsOf h i := by
        have hdid := hf.did hi
        generalize deedsOf h i = l at hdid
        cases hdid
        simp
      rw [← hek] at htook
      have hsame : e.1.sameAs path = true :=
        (Path.sameAs_iff _ _).2 (hl.agrees hmem (mem_deedsOf.1 htook) (hf.path_eq hi))
      simp [hsame, hek] at hnot
  | leave hi => exact hl.stay nofun (.refl _) hl.linked nofun

/-- All that holds of a reachable state and its history. -/
structure Lawful (paths : List Path) (h : List (Nat × Deed ε)) (s : InFlight ε) : Prop where
  followed : Followed paths h s
  kept : Kept h s
  linked : Linked paths h s

/-- **Every reachable state** is lawful, with its history. -/
theorem lawful_run (paths : List Path) (schedule : List (Nat × Except ε Nat)) :
    Lawful paths ((init paths).history schedule) ((init paths).run schedule) := by
  have hstep : ∀ {h : List (Nat × Deed ε)} {s i d t}, Step s i d t → Lawful paths h s →
      Lawful paths (h ++ [(i, d)]) t := by
    intro h s i d t hs hlaw
    exact ⟨hs.followed hlaw.followed, hs.kept hlaw.followed hlaw.kept,
      hs.linked hlaw.followed hlaw.kept hlaw.linked⟩
  have hinit : Lawful paths ([] : List (Nat × Deed ε)) (init paths) :=
    ⟨followed_init paths, kept_init paths, linked_init paths⟩
  exact run_induction hstep hinit schedule

end DiskUsage.InFlight
