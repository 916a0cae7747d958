import DiskUsage.Proofs.Cache.Encoding
import Mathlib.Data.List.Pairwise

/-!
# Copies of a map that grows

While a map is copied entry by entry, others may go on remembering measurements in it.  Such a copy need
not be the map of any single moment.  But it has every path that the map had when the copy was begun,
and each of its entries is that of the map at a moment since then.

* `SizeMap.moment`: the map after so many measurements were remembered.
* `SizeMap.Covers`: a copy, not yet complete, of a map from a moment on.
* `find?_insertAll`: what is found after measurements were remembered is one of them, or was found before.
* `Covers.find?`: a measurement is found in a copy that was begun after it, or a later one of its path.
* `Covers.perm`: a copy that was begun after the last measurement is the map.
-/

namespace DiskUsage.SizeMap

variable {opened map : SizeMap} {inserted : List (Path × Measured)} {k : Nat}

/-! ### What is found after measurements were remembered -/

/-- What is found after measurements were remembered is one of them, or was found before. -/
theorem find?_insertAll {path : Path} {m : Measured} {entries : List (Path × Measured)}
    (h : (map.insertAll entries).find? path = some m) :
    (∃ e ∈ entries, e.1.sameAs path = true ∧ e.2 = m) ∨ map.find? path = some m := by
  induction entries generalizing map with
  | nil => exact .inr h
  | cons e rest ih =>
    change ((map.insert e.1 e.2).insertAll rest).find? path = some m at h
    rcases ih h with ⟨d, hd, hfound⟩ | hfound
    · exact .inl ⟨d, List.mem_cons_of_mem _ hd, hfound⟩
    · cases hsame : e.1.sameAs path with
      | true =>
        rw [find?_insert_self hsame] at hfound
        exact .inl ⟨e, List.mem_cons_self, hsame, Option.some.inj hfound⟩
      | false =>
        rw [find?_insert_of_not_sameAs hsame] at hfound
        exact .inr hfound

/-- A path that is found stays found. -/
theorem isSome_find?_insertAll {path : Path} (h : (map.find? path).isSome = true)
    (entries : List (Path × Measured)) : ((map.insertAll entries).find? path).isSome = true := by
  induction entries generalizing map with
  | nil => exact h
  | cons e rest ih =>
    change (((map.insert e.1 e.2).insertAll rest).find? path).isSome = true
    refine ih ?_
    cases hsame : e.1.sameAs path with
    | true =>
      rw [find?_insert_self hsame]
      rfl
    | false => rwa [find?_insert_of_not_sameAs hsame]

/-- Nothing is found for a path that is none of a map's. -/
theorem find?_eq_none_iff {path : Path} :
    map.find? path = none ↔ ∀ e ∈ map, e.1.sameAs path = false := by
  induction map with
  | nil => simp [find?]
  | cons e rest ih =>
    obtain ⟨p, m⟩ := e
    rw [find?, List.forall_mem_cons]
    cases hp : p.sameAs path with
    | true => simp
    | false => simp [ih]

/-! ### Two maps with the same entries -/

theorem Distinct.nodup (h : Distinct map) : map.Nodup := by
  refine h.imp ?_
  rintro a b hne rfl
  exact absurd (hne.symm.trans (Path.sameAs_refl a.1)) nofun

/-- An entry of a path is the only one. -/
theorem Distinct.eq_of_sameAs (h : Distinct map) {a b : Path × Measured} (ha : a ∈ map) (hb : b ∈ map)
    (hsame : a.1.sameAs b.1 = true) : a = b := by
  have hsymm : Std.Symm fun x y : Path × Measured => x.1.sameAs y.1 = false :=
    ⟨fun x y hxy => by rwa [Path.sameAs_comm]⟩
  by_contra hne
  exact absurd (hsame.symm.trans (List.Pairwise.forall h ha hb hne)) nofun

/-- The text of the file does not depend on the order in which the entries were found. -/
theorem encode_perm {a b : SizeMap} (h : Distinct a) (hperm : a.Perm b) : a.encode = b.encode := by
  have hsorted : a.sorted = b.sorted := by
    refine List.Perm.eq_of_pairwise ?_ (pairwise_sorted a) (pairwise_sorted b)
      ((sorted_perm a).trans (hperm.trans (sorted_perm b).symm))
    intro x y hx hy hxy hyx
    have hinA : x ∈ a := (sorted_perm a).mem_iff.1 hx
    have hinB : y ∈ a := hperm.mem_iff.2 ((sorted_perm b).mem_iff.1 hy)
    exact h.eq_of_sameAs hinA hinB (Path.sameAs_of_atMost hxy hyx)
  rw [encode, encode, hsorted]

/-! ### Copies -/

/-- The map after so many of the measurements were remembered. -/
def moment (opened : SizeMap) (inserted : List (Path × Measured)) (k : Nat) : SizeMap :=
  opened.insertAll (inserted.take k)

theorem moment_length : moment opened inserted inserted.length = opened.insertAll inserted := by
  rw [moment, List.take_length]

theorem moment_append (hk : k ≤ inserted.length) (more : List (Path × Measured)) :
    moment opened (inserted ++ more) k = moment opened inserted k := by
  rw [moment, List.take_append_of_le_length hk, moment]

theorem Distinct.moment (h : Distinct opened) (inserted : List (Path × Measured)) (k : Nat) :
    Distinct (moment opened inserted k) :=
  h.insertAll _

/-- A copy of the map that was begun after so many measurements were remembered; some paths have still
to be copied. -/
structure Covers (opened : SizeMap) (inserted : List (Path × Measured)) (k : Nat) (copy : SizeMap)
    (owed : List Path) : Prop where
  distinct : Distinct copy
  /-- Every entry was in the map when it was copied. -/
  known : ∀ e ∈ copy, ∃ j, k ≤ j ∧ j ≤ inserted.length ∧ e ∈ moment opened inserted j
  /-- Every path that was in the map has been copied, or still has to be. -/
  complete : ∀ e ∈ moment opened inserted k,
    (∃ d ∈ copy, d.1.sameAs e.1 = true) ∨ ∃ p ∈ owed, p.sameAs e.1 = true

namespace Covers

variable {copy : SizeMap} {owed : List Path}

/-- A copy that is begun now. -/
theorem begin (opened : SizeMap) (inserted : List (Path × Measured)) :
    Covers opened inserted inserted.length [] ((opened.insertAll inserted).map Prod.fst) where
  distinct := List.Pairwise.nil
  known := nofun
  complete := by
    intro e he
    rw [moment_length] at he
    exact .inr ⟨e.1, List.mem_map_of_mem he, Path.sameAs_refl e.1⟩

/-- The map itself. -/
theorem refl (h : Distinct opened) : Covers opened [] 0 opened [] where
  distinct := h
  known := fun _ he => ⟨0, Nat.le_refl 0, Nat.le_refl 0, he⟩
  complete := fun e he => .inl ⟨e, he, Path.sameAs_refl _⟩

/-- A copy stays what it is while more is remembered. -/
theorem grow (h : Covers opened inserted k copy owed) (hk : k ≤ inserted.length)
    (more : List (Path × Measured)) : Covers opened (inserted ++ more) k copy owed where
  distinct := h.distinct
  known := by
    intro e he
    obtain ⟨j, hkj, hj, hin⟩ := h.known e he
    refine ⟨j, hkj, ?_, ?_⟩
    · rw [List.length_append]
      omega
    · rwa [moment_append hj]
  complete := by
    rw [moment_append hk]
    exact h.complete

/-- One more entry is copied. -/
theorem snoc (h : Covers opened inserted k copy owed) (hk : k ≤ inserted.length) {path : Path}
    {e : Path × Measured} (hnew : copy.find? path = none) (hsame : e.1.sameAs path = true)
    (he : e ∈ opened.insertAll inserted) :
    Covers opened inserted k (copy ++ [e]) (owed.filter fun p => !p.sameAs path) where
  distinct := by
    refine List.pairwise_append.2 ⟨h.distinct, List.pairwise_singleton _ _, ?_⟩
    intro d hd e' he'
    cases List.mem_singleton.1 he'
    rw [Bool.eq_false_iff]
    intro hde
    exact absurd ((Path.sameAs_trans hde hsame).symm.trans (find?_eq_none_iff.1 hnew d hd)) nofun
  known := by
    intro d hd
    rcases List.mem_append.1 hd with hd | hd
    · exact h.known d hd
    · cases List.mem_singleton.1 hd
      exact ⟨inserted.length, hk, Nat.le_refl _, by rwa [moment_length]⟩
  complete := by
    intro x hx
    rcases h.complete x hx with ⟨d, hd, hdx⟩ | ⟨p, hp, hpx⟩
    · exact .inl ⟨d, List.mem_append_left _ hd, hdx⟩
    · cases hpath : p.sameAs path with
      | true =>
        rw [Path.sameAs_comm] at hpath
        exact .inl ⟨e, by simp, Path.sameAs_trans hsame (Path.sameAs_trans hpath hpx)⟩
      | false => exact .inr ⟨p, List.mem_filter.2 ⟨hp, by rw [hpath]; rfl⟩, hpx⟩

/-- **A measurement is found** in a copy that was begun after it was remembered, or else one that was
remembered later for its path. -/
theorem find? (h : Covers opened inserted k copy []) (hopened : Distinct opened)
    {earlier since : List (Path × Measured)} {path : Path} {m : Measured}
    (hinserted : inserted = earlier ++ (path, m) :: since) (hk : earlier.length < k) :
    ∃ found, copy.find? path = some found
      ∧ (found = m ∨ ∃ e ∈ since, e.1.sameAs path = true ∧ e.2 = found) := by
  have hsplit : ∀ j, earlier.length < j → moment opened inserted j
      = ((opened.insertAll earlier).insert path m).insertAll (since.take (j - earlier.length - 1)) := by
    intro j hj
    obtain ⟨n, rfl⟩ := Nat.exists_eq_add_of_lt hj
    rw [moment, hinserted, List.take_append, List.take_of_length_le (by omega), insertAll_append]
    have hrest : earlier.length + n + 1 - earlier.length = n + 1 := by omega
    rw [hrest, List.take_succ_cons, Nat.add_sub_cancel]
    rfl
  have hself := find?_insert_self (Path.sameAs_refl path) m (opened.insertAll earlier)
  obtain ⟨old, hold⟩ : ∃ old, (moment opened inserted k).find? path = some old := by
    rw [hsplit k hk]
    exact Option.isSome_iff_exists.1 (isSome_find?_insertAll (by rw [hself]; rfl) _)
  obtain ⟨e, he, hep, -⟩ := (hopened.moment inserted k).find?_eq_some_iff.1 hold
  rcases h.complete e he with ⟨d, hd, hde⟩ | ⟨p, hp, -⟩
  · have hdp := Path.sameAs_trans hde hep
    obtain ⟨j, hkj, -, hin⟩ := h.known d hd
    refine ⟨d.2, h.distinct.find?_eq_some_iff.2 ⟨d, hd, hdp, rfl⟩, ?_⟩
    have hfound := (hopened.moment inserted j).find?_eq_some_iff.2 ⟨d, hin, hdp, rfl⟩
    rw [hsplit j (by omega)] at hfound
    rcases find?_insertAll hfound with ⟨x, hx, hxp⟩ | hm
    · exact .inr ⟨x, List.mem_of_mem_take hx, hxp⟩
    · exact .inl (Option.some.inj (hm.symm.trans hself))
  · cases hp

/-- **A copy that was begun after the last measurement** is the map, though its entries may stand in
another order. -/
theorem perm (h : Covers opened inserted inserted.length copy []) (hopened : Distinct opened) :
    copy.Perm (opened.insertAll inserted) := by
  have hdistinct := hopened.insertAll inserted
  have hsub : ∀ e ∈ copy, e ∈ opened.insertAll inserted := by
    intro e he
    obtain ⟨j, hj, hle, hin⟩ := h.known e he
    rwa [Nat.le_antisymm hle hj, moment_length] at hin
  refine (List.perm_ext_iff_of_nodup h.distinct.nodup hdistinct.nodup).2 fun e => ⟨hsub e, ?_⟩
  intro he
  rcases h.complete e (by rwa [moment_length]) with ⟨d, hd, hde⟩ | ⟨p, hp, -⟩
  · rwa [← hdistinct.eq_of_sameAs (hsub d hd) he hde]
  · cases hp

end Covers

end DiskUsage.SizeMap
