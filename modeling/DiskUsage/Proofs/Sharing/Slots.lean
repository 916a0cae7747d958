import DiskUsage.Proofs.Sharing.Callers

/-!
# What a slot shows

A slot is filled by one measurement: it is empty until one starts, busy until that one ends, and
keeps its size from then on.

* `InFlight.Saw`: the measurement behind what a slot holds; `Saw.eq_of_ends`: it has one end.
* `InFlight.Kept`: this holds of all slots, and whoever released one found its size there;
  `Step.kept`: every step keeps it.
-/

namespace DiskUsage.InFlight

variable {ε : Type}

/-- What started and ended a measurement for a slot, from what the slot holds. -/
inductive Saw (slot : Nat) : Slot → List (Nat × Deed ε) → Prop where
  | empty : Saw slot .empty []
  | busy (owner : Nat) : Saw slot .busy [(owner, .starts slot)]
  | filled (owner : Nat) (outcome : Except ε Nat) :
      Saw slot (.filled (sizeOf? outcome)) [(owner, .starts slot), (owner, .ends slot outcome)]

/-- All slots show the measurements that were made for them. -/
structure Kept (h : List (Nat × Deed ε)) (s : InFlight ε) : Prop where
  known : ∀ {i d}, (i, d) ∈ h → d.slot < s.slots.length
  listed : ∀ {e}, e ∈ s.table → e.2 < s.slots.length
  saw : ∀ {k v}, s.slots[k]? = some v → Saw k v (runsOf h k)
  released : ∀ {i k size?}, (i, .releases k size?) ∈ h → s.slots[k]? = some (.filled size?)

variable {paths : List Path} {h : List (Nat × Deed ε)} {s t : InFlight ε} {i j k : Nat} {d : Deed ε}

theorem kept_init (paths : List Path) : Kept ([] : List (Nat × Deed ε)) (init paths) := by
  refine ⟨?_, ?_, ?_, ?_⟩ <;> simp [init]

/-- Slots are never taken away, so that all that were known still are. -/
theorem Kept.known_concat {n : Nat} (hk : Kept h s) (hn : s.slots.length ≤ n) (hd : d.slot < n)
    {e : Deed ε} (he : (j, e) ∈ h ++ [(i, d)]) : e.slot < n := by
  rcases List.mem_append.1 he with he | he
  · exact Nat.lt_of_lt_of_le (hk.known he) hn
  · cases List.mem_singleton.1 he
    exact hd

/-- The slots stay as they are. -/
theorem Kept.same (hk : Kept h s) (hslots : t.slots = s.slots) (htable : ∀ e ∈ t.table, e ∈ s.table)
    (hlt : d.slot < s.slots.length) (hruns : ∀ k, d.runs k = false)
    (hreleased : ∀ k size?, d = .releases k size? → s.slots[k]? = some (.filled size?)) :
    Kept (h ++ [(i, d)]) t := by
  refine ⟨?_, ?_, ?_, ?_⟩
  · intro j e he
    rw [hslots]
    exact hk.known_concat (Nat.le_refl _) hlt he
  · intro e he
    rw [hslots]
    exact hk.listed (htable e he)
  · intro k v hv
    rw [hslots] at hv
    rw [runsOf_concat_of_not (hruns k)]
    exact hk.saw hv
  · intro j k size? he
    rw [hslots]
    rcases List.mem_append.1 he with he | he
    · exact hk.released he
    · cases List.mem_singleton.1 he
      exact hreleased k size? rfl

/-- One slot changes, that was not filled. -/
theorem Kept.change {v : Slot} (hk : Kept h s) (hslots : t.slots = s.slots.set k v)
    (htable : t.table = s.table) (hlt : k < s.slots.length) (hruns : d.runs k = true)
    (hsaw : Saw k v (runsOf h k ++ [(i, d)])) (hold : ∀ size?, s.slots[k]? ≠ some (.filled size?)) :
    Kept (h ++ [(i, d)]) t := by
  have hslot := Deed.slot_of_runs hruns
  refine ⟨?_, ?_, ?_, ?_⟩
  · intro j e he
    rw [hslots, List.length_set]
    exact hk.known_concat (Nat.le_refl _) (by rwa [hslot]) he
  · intro e he
    rw [hslots, List.length_set]
    rw [htable] at he
    exact hk.listed he
  · intro l w hw
    rw [hslots] at hw
    by_cases hkl : k = l
    · subst hkl
      rw [List.getElem?_set_self hlt] at hw
      cases hw
      rw [runsOf_concat_of_runs hruns]
      exact hsaw
    · rw [List.getElem?_set_ne hkl] at hw
      have hnot : d.runs l = false :=
        Bool.eq_false_iff.2 fun hl => hkl (hslot.symm.trans (Deed.slot_of_runs hl))
      rw [runsOf_concat_of_not hnot]
      exact hk.saw hw
  · intro j l size? he
    rcases List.mem_append.1 he with he | he
    · have hfilled := hk.released he
      have hkl : k ≠ l := by
        rintro rfl
        exact hold size? hfilled
      rw [hslots, List.getElem?_set_ne hkl]
      exact hfilled
    · cases List.mem_singleton.1 he
      cases hruns

/-- A new slot is empty, and nobody did anything to it. -/
theorem Kept.grow {e : Path × Nat} (hk : Kept h s) (hslots : t.slots = s.slots ++ [.empty])
    (htable : t.table = e :: s.table) (he : e.2 = s.slots.length) :
    Kept (h ++ [(i, .takes s.slots.length)]) t := by
  refine ⟨?_, ?_, ?_, ?_⟩
  · intro j d hd
    rw [hslots, List.length_append, List.length_singleton]
    exact hk.known_concat (Nat.le_succ _) (Nat.lt_succ_self _) hd
  · intro f hf
    rw [hslots, List.length_append, List.length_singleton]
    rw [htable] at hf
    rcases List.mem_cons.1 hf with rfl | hf
    · omega
    · have hlt := hk.listed hf
      omega
  · intro k v hv
    rw [runsOf_concat_of_not rfl]
    rw [hslots] at hv
    rcases Nat.lt_trichotomy k s.slots.length with hlt | rfl | hgt
    · rw [List.getElem?_append_left hlt] at hv
      exact hk.saw hv
    · rw [List.getElem?_concat_length] at hv
      cases hv
      have hnil : runsOf h s.slots.length = [] := by
        refine List.eq_nil_iff_forall_not_mem.2 fun f hf => ?_
        obtain ⟨hmem, hruns⟩ := mem_runsOf.1 hf
        have hlt := hk.known (i := f.1) (d := f.2) hmem
        rw [Deed.slot_of_runs hruns] at hlt
        exact Nat.lt_irrefl _ hlt
      rw [hnil]
      exact .empty
    · rw [List.getElem?_eq_none (by simp; omega)] at hv
      cases hv
  · intro j k size? hd
    rcases List.mem_append.1 hd with hd | hd
    · have hlt : k < s.slots.length := hk.known hd
      rw [hslots, List.getElem?_append_left hlt]
      exact hk.released hd
    · cases List.mem_singleton.1 hd

/-- A caller that holds a slot, or more, holds one that there is. -/
theorem Followed.slot_lt {p : Path} {c : Caller ε} (hf : Followed paths h s) (hk : Kept h s)
    (hi : s.callers[i]? = some (p, c)) (hc : ∀ l, Did c l → .takes k ∈ l) : k < s.slots.length :=
  hk.known (i := i) (d := .takes k) (mem_deedsOf.1 (hc _ (hf.did hi)))

/-- While a caller measures for a slot, the slot is busy with its measurement. -/
theorem Followed.busy {p : Path} (hf : Followed paths h s) (hk : Kept h s)
    (hi : s.callers[i]? = some (p, .measuring k)) :
    s.slots[k]? = some .busy ∧ runsOf h k = [(i, .starts k)] := by
  obtain ⟨hstarted, hnot⟩ := (hf.did hi).measures
  have hstarts : (i, .starts k) ∈ runsOf h k :=
    mem_runsOf.2 ⟨mem_deedsOf.1 hstarted, by simp [Deed.runs]⟩
  have hlt := hf.slot_lt hk hi (k := k) fun l hl => by cases hl; simp
  have hsaw := hk.saw (List.getElem?_eq_getElem hlt)
  rw [List.getElem?_eq_getElem hlt]
  generalize hv : s.slots[k] = v at hsaw
  generalize hr : runsOf h k = runs at hsaw hstarts
  cases hsaw with
  | empty => cases hstarts
  | busy owner =>
    obtain ⟨rfl, -⟩ : i = owner ∧ True := by simpa using hstarts
    exact ⟨rfl, rfl⟩
  | filled owner outcome =>
    obtain rfl : i = owner := by simpa using hstarts
    have hends : (i, .ends k outcome) ∈ runsOf h k := by simp [hr]
    exact absurd (mem_deedsOf.2 (mem_runsOf.1 hends).1) (hnot outcome)

theorem Step.kept (hs : Step s i d t) (hf : Followed paths h s) (hk : Kept h s) :
    Kept (h ++ [(i, d)]) t := by
  cases hs with
  | takeShared hi hs =>
    obtain ⟨e, he, rfl⟩ := Option.map_eq_some_iff.1 hs
    exact hk.same rfl (fun _ => id) (hk.listed (List.mem_of_find?_eq_some he)) (fun _ => rfl) (by rintro _ _ ⟨⟩)
  | takeNew hi hs => exact hk.grow rfl rfl rfl
  | start hi hs =>
    have hlt := (List.getElem?_eq_some_iff.1 hs).1
    have hsaw := hk.saw hs
    refine hk.change rfl rfl hlt (by simp [Deed.runs]) ?_ (by simp [hs])
    generalize runsOf h _ = runs at hsaw
    cases hsaw
    exact .busy i
  | join hi hs =>
    exact hk.same rfl (fun _ => id) (List.getElem?_eq_some_iff.1 hs).1 (fun _ => rfl) (by rintro _ _ ⟨⟩)
  | finish hi =>
    obtain ⟨hbusy, hruns⟩ := hf.busy hk hi
    have hlt := (List.getElem?_eq_some_iff.1 hbusy).1
    refine hk.change rfl rfl hlt (by simp [Deed.runs]) ?_ (by simp [hbusy])
    rw [hruns]
    exact .filled i _
  | release hi hs =>
    refine hk.same rfl (fun _ he => (List.mem_filter.1 he).1) (List.getElem?_eq_some_iff.1 hs).1
      (fun _ => rfl) ?_
    intro k size? hd
    cases hd
    exact hs
  | leave hi =>
    refine hk.same rfl (fun _ => id) ?_ (fun _ => rfl) (by rintro _ _ ⟨⟩)
    exact hf.slot_lt hk hi fun l hl => by cases hl; simp [Deed.slot]

end DiskUsage.InFlight
