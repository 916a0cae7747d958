import DiskUsage.Entry.Result
import DiskUsage.Proofs.Json.Records

/-!
# A result is read back

A result is written compact or pretty.  It cannot be written iff one of its entries was last accessed
before the epoch; and what was written is read as the very result, with its entries and large files in
their order, if sizes, counts and times are those of a machine.

* `ScanResult.Fits`: sizes and counts are 64-bit words, and no time lies beyond the clock.
* `toJson?_eq_none_iff`: which results cannot be written.
* `ofJson?_toJson?`: the record of a result holds the result.
* `result_round_trip`: the text of a result holds the result.
-/

namespace DiskUsage

open Json Number

/-! ### Points in time -/

namespace Timestamp

/-- The point lies before the epoch. -/
def BeforeEpoch (t : Timestamp) : Prop :=
  t.toNanos < 0

theorem beforeEpoch_iff (t : Timestamp) : t.BeforeEpoch ↔ t.secs < 0 := by
  have hnanos := t.nanos_lt
  unfold BeforeEpoch toNanos
  simp only [nanosPerSecond] at *
  omega

/-- A point on the clock is read back from its two parts. -/
theorem ofParts?_toParts? {t : Timestamp} (ht : t.secs ≤ maxSecs) {secs nanos : Nat}
    (h : t.toParts? = some (secs, nanos)) : ofParts? secs nanos = some t := by
  have hnanos := t.nanos_lt
  unfold toParts? at h
  split at h
  · next hpos =>
    obtain ⟨rfl, rfl⟩ := Prod.mk.inj (Option.some.inj h)
    have hq : t.nanos / nanosPerSecond = 0 := Nat.div_eq_of_lt hnanos
    have hr : t.nanos % nanosPerSecond = t.nanos := Nat.mod_eq_of_lt hnanos
    have hsecs : Int.ofNat t.secs.toNat = t.secs := Int.toNat_of_nonneg hpos
    have hclock : t.secs.toNat ≤ maxSecs := by omega
    unfold ofParts?
    simp only [hq, hr, Nat.add_zero]
    rw [if_pos hclock]
    simp only [hsecs]
  · cases h

/-- **A point in time** that can be written is read back. -/
theorem ofJson?_toJson? {t : Timestamp} (ht : t.secs ≤ maxSecs) {j : Json}
    (h : t.toJson? = some j) : ofJson? j = some t := by
  obtain ⟨⟨secs, nanos⟩, hparts, hj⟩ := Option.bind_eq_some_iff.1 h
  cases hj
  have hread : ofParts? secs nanos = some t := ofParts?_toParts? ht hparts
  have hbounds : secs < wordCount ∧ nanos < 4294967296 := by
    have hnanos := t.nanos_lt
    unfold toParts? at hparts
    split at hparts
    · cases hparts
      simp only [maxSecs, nanosPerSecond, wordCount] at *
      omega
    · cases hparts
  rw [ofJson?, secondsAndNanos?_record (by decide) hbounds.1 hbounds.2]
  exact hread

theorem plain_toJson? {t : Timestamp} {j : Json} (h : t.toJson? = some j) : Plain j := by
  obtain ⟨⟨secs, nanos⟩, -, hj⟩ := Option.bind_eq_some_iff.1 h
  cases hj
  exact plain_record (by simp [plain_nat])

end Timestamp

theorem Duration.plain_toJson (d : Duration) : Plain d.toJson :=
  plain_record (by simp [plain_nat])

/-! ### Entries -/

namespace DirEntry

/-- The size is a 64-bit word, and the last access lies on the clock. -/
structure Fits (e : DirEntry) : Prop where
  size : e.size < wordCount
  lastAccess : ∀ t, e.lastAccess = some t → t.secs ≤ Timestamp.maxSecs

/-- The entry was last accessed before the epoch. -/
def AccessedBeforeEpoch (e : DirEntry) : Prop :=
  ∃ t, e.lastAccess = some t ∧ t.BeforeEpoch

/-- The time of the last access is read back, and so is that there is none. -/
theorem optional?_lastAccessJson? {e : DirEntry} (he : e.Fits) {j : Json}
    (h : e.lastAccessJson? = some j) : j.optional? Timestamp.ofJson? = some e.lastAccess := by
  unfold lastAccessJson? at h
  cases haccess : e.lastAccess with
  | none =>
    rw [haccess] at h
    cases h
    rfl
  | some t =>
    rw [haccess] at h
    have hread : Timestamp.ofJson? j = some t := Timestamp.ofJson?_toJson? (he.lastAccess t haccess) h
    obtain ⟨parts, -, hj⟩ := Option.bind_eq_some_iff.1 h
    cases hj
    rw [optional?, hread]
    · rfl
    · nofun

theorem plain_lastAccessJson? {e : DirEntry} {j : Json} (h : e.lastAccessJson? = some j) :
    Plain j := by
  unfold lastAccessJson? at h
  split at h
  · cases h
    trivial
  · exact Timestamp.plain_toJson? h

/-- **An entry** that can be written is read back. -/
theorem ofJson?_toJson? {e : DirEntry} (he : e.Fits) {j : Json} (h : e.toJson? = some j) :
    ofJson? j = some e := by
  obtain ⟨accessed, haccessed, hj⟩ := Option.bind_eq_some_iff.1 h
  cases hj
  have hfields := readRecord?_record [
    ("name", .text e.name), ("path", .text e.path.text), ("size", .nat e.size),
    ("is_dir", .bool e.isDir), ("last_access", accessed)] (by simp) ["last_access"]
  simp only [List.map_cons, List.map_nil] at hfields
  rw [ofJson?, fieldNames, hfields]
  simp [text?, bool?, word?_nat he.size, optional?_lastAccessJson? he haccessed]

theorem plain_toJson? {e : DirEntry} {j : Json} (h : e.toJson? = some j) : Plain j := by
  obtain ⟨accessed, haccessed, hj⟩ := Option.bind_eq_some_iff.1 h
  cases hj
  have hplain := plain_lastAccessJson? haccessed
  exact plain_record (by simp [plain_nat, hplain, Plain])

end DirEntry

namespace LargeFile

/-- **A large file** is read back. -/
theorem ofJson?_toJson {f : LargeFile} (hf : f.size < wordCount) : ofJson? f.toJson = some f := by
  have hfields := readRecord?_record [
    ("name", .text f.name), ("path", .text f.path.text), ("size", .nat f.size)] (by simp) []
  simp only [List.map_cons, List.map_nil] at hfields
  rw [ofJson?, toJson, fieldNames, hfields]
  simp [text?, word?_nat hf]

theorem plain_toJson (f : LargeFile) : Plain f.toJson :=
  plain_record (by simp [plain_nat, Plain])

end LargeFile

/-! ### Results -/

namespace ScanResult

/-- Sizes and counts are 64-bit words, and every last access lies on the clock. -/
structure Fits (r : ScanResult) : Prop where
  entries : ∀ e ∈ r.entries, e.Fits
  largeFiles : ∀ f ∈ r.largeFiles, f.size < wordCount
  totalSize : r.totalSize < wordCount
  filesScanned : r.filesScanned < wordCount
  dirsScanned : r.dirsScanned < wordCount

/-- **A result cannot be written** iff an entry of it was last accessed before the epoch. -/
theorem toJson?_eq_none_iff (r : ScanResult) :
    r.toJson? = none ↔ ∃ e ∈ r.entries, e.AccessedBeforeEpoch := by
  have hentries : r.toJson? = none ↔ r.entries.mapM DirEntry.toJson? = none := by
    unfold toJson?
    cases r.entries.mapM DirEntry.toJson? <;> simp
  rw [hentries, mapM_eq_none_iff]
  simp only [DirEntry.toJson?_eq_none_iff, DirEntry.AccessedBeforeEpoch, Timestamp.beforeEpoch_iff]

/-- **The record of a result** holds the result. -/
theorem ofJson?_toJson? {r : ScanResult} (hr : r.Fits) {j : Json} (h : r.toJson? = some j) :
    ofJson? j = some r := by
  obtain ⟨entries, hentries, hj⟩ := Option.bind_eq_some_iff.1 h
  cases hj
  have hreadEntries : entries.mapM DirEntry.ofJson? = some r.entries :=
    mapM_mapM (fun e he j hj => DirEntry.ofJson?_toJson? (hr.entries e he) hj) hentries
  have hreadFiles : (r.largeFiles.map LargeFile.toJson).mapM LargeFile.ofJson? = some r.largeFiles :=
    mapM_mapM (fun f hf j (hj : some f.toJson = some j) =>
        Option.some.inj hj ▸ LargeFile.ofJson?_toJson (hr.largeFiles f hf))
      (List.mapM_pure ..)
  have hfields := readRecord?_record [
    ("root", .text r.root.text), ("entries", .array entries),
    ("large_files", .array (r.largeFiles.map LargeFile.toJson)),
    ("total_size", .nat r.totalSize), ("files_scanned", .nat r.filesScanned),
    ("dirs_scanned", .nat r.dirsScanned), ("scan_duration", r.duration.toJson)] (by simp) []
  simp only [List.map_cons, List.map_nil] at hfields
  rw [ofJson?, fieldNames, hfields]
  simp [text?, array?, hreadEntries, hreadFiles, word?_nat hr.totalSize, word?_nat hr.filesScanned,
    word?_nat hr.dirsScanned, Duration.ofJson?_toJson]

theorem plain_toJson? {r : ScanResult} {j : Json} (h : r.toJson? = some j) : Plain j := by
  obtain ⟨entries, hentries, hj⟩ := Option.bind_eq_some_iff.1 h
  cases hj
  have hplainEntries : Plain (.array entries) := by
    refine plainItems_iff.2 fun j hj => ?_
    obtain ⟨e, -, he⟩ := exists_of_mem_mapM hentries j hj
    exact DirEntry.plain_toJson? he
  have hplainFiles : Plain (.array (r.largeFiles.map LargeFile.toJson)) := by
    refine plainItems_iff.2 fun j hj => ?_
    obtain ⟨f, -, rfl⟩ := List.mem_map.1 hj
    exact f.plain_toJson
  refine plain_record ?_
  simp only [List.forall_mem_cons, List.not_mem_nil, false_imp_iff, implies_true, and_true]
  exact ⟨trivial, hplainEntries, hplainFiles, plain_nat _, plain_nat _, plain_nat _,
    r.duration.plain_toJson⟩

/-- **A result is read back from its text**, compact or pretty, with every field as it was.  There is
no such text iff an entry was last accessed before the epoch. -/
theorem result_round_trip {r : ScanResult} (hr : r.Fits) {write : Json → String}
    (hwrite : write = compact ∨ write = pretty) :
    (r.toJson?.map write = none ↔ ∃ e ∈ r.entries, e.AccessedBeforeEpoch) ∧
      ∀ text, r.toJson?.map write = some text → ofText? text = some r := by
  refine ⟨by rw [Option.map_eq_none_iff, toJson?_eq_none_iff], fun text htext => ?_⟩
  obtain ⟨j, hj, rfl⟩ := Option.map_eq_some_iff.1 htext
  have hplain : Plain j := plain_toJson? hj
  have hparse : parse? (write j) = some j := by
    rcases hwrite with rfl | rfl
    · exact parse?_compact hplain
    · exact parse?_pretty hplain
  rw [ofText?, hparse]
  exact ofJson?_toJson? hr hj

theorem lastNanosecond_lt : 999999999 < nanosPerSecond := by decide

/-- Names that need escapes or are empty, the largest words, and both ends of the clock. -/
def unwieldy : ScanResult where
  root := ⟨"/"⟩
  entries := [
    ⟨"say \"hi\" \\ \n\x01", ⟨"/say \"hi\""⟩, maxWord, true, none⟩,
    ⟨"é𝄞 →", ⟨"/é𝄞"⟩, 0, false, some ⟨Timestamp.maxSecs, 999999999, lastNanosecond_lt⟩⟩,
    ⟨"", ⟨"//"⟩, 1, false, some ⟨0, 0, Duration.zero.nanos_lt⟩⟩]
  largeFiles := [⟨"twin", ⟨"/b/twin"⟩, 7⟩, ⟨"twin", ⟨"/a/twin"⟩, 7⟩]
  totalSize := maxWord
  filesScanned := maxWord
  dirsScanned := 0
  duration := ⟨18446744073709551615, 999999999, lastNanosecond_lt⟩

/-- A result with an entry that was last accessed a nanosecond before the epoch. -/
def tooEarly : ScanResult :=
  { empty ⟨"/"⟩ with entries := [⟨"early", ⟨"/early"⟩, 1, false, some ⟨-1, 999999999, lastNanosecond_lt⟩⟩] }

theorem unwieldy_round_trip :
    unwieldy.Fits ∧ tooEarly.Fits ∧ tooEarly.toJson?.map compact = none ∧
      (∃ text, unwieldy.toJson?.map compact = some text ∧ ofText? text = some unwieldy) ∧
      ∃ text, unwieldy.toJson?.map pretty = some text ∧ ofText? text = some unwieldy := by
  have hfits : unwieldy.Fits := by
    refine ⟨?_, by decide, by decide, by decide, by decide⟩
    intro e he
    simp only [unwieldy, List.mem_cons, List.not_mem_nil, or_false] at he
    rcases he with rfl | rfl | rfl <;> exact ⟨by decide, by decide⟩
  have hearly : tooEarly.Fits := by
    refine ⟨?_, fun f hf => absurd hf List.not_mem_nil, by decide, by decide, by decide⟩
    intro e he
    cases List.mem_singleton.1 he
    exact ⟨by decide, fun t ht => by cases ht; decide⟩
  obtain ⟨j, hj⟩ : ∃ j, unwieldy.toJson? = some j := ⟨_, rfl⟩
  refine ⟨hfits, hearly, ?_, ⟨j.compact, by rw [hj]; rfl, ?_⟩, ⟨j.pretty, by rw [hj]; rfl, ?_⟩⟩
  · exact (result_round_trip hearly (.inl rfl)).1.2
      ⟨_, List.mem_singleton_self _, _, rfl, (Timestamp.beforeEpoch_iff _).2 (by decide)⟩
  · exact (result_round_trip hfits (.inl rfl)).2 _ (by rw [hj]; rfl)
  · exact (result_round_trip hfits (.inr rfl)).2 _ (by rw [hj]; rfl)

end ScanResult

end DiskUsage
