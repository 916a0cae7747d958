import DiskUsage.Proofs.Cache.History
import DiskUsage.Proofs.Cache.Snapshot
import DiskUsage.Proofs.Cache.Unobstructed
import DiskUsage.Proofs.Cache.Uses

/-!
# What the file of a cache lists

A cache that starts without its file writes its whole map whenever a size is stored.  So the file lists
every path that was ever stored once, under the spelling that came first and with what was stored last, in
the order of the components of the paths.  Which stores led to the map, and in which order, cannot be told
from the file.

* `SizeMap.entryOf?`, `SizeMap.spelling?`: the entry of a path, and its spelling; `spelling?_insert`.
* `entryDue?`: the entry that is due to a path, told from what was done.
* `Listing`: the map holds the entries that are due, and the file the map; `Listing.reply`: one use.
* `History`: a cache and what is done with it; `file_lists_what_was_stored`: what is in its file then.
* `History.links_take_the_place_of_the_list`: disks on which the file does not list what was stored.
-/

open scoped List

namespace DiskUsage

open FileSystem

/-! ### The entry of a path -/

namespace SizeMap

/-- The entry of a path. -/
def entryOf? (path : Path) (map : SizeMap) : Option (Path × Measured) :=
  List.find? (fun e => e.1.sameAs path) map

/-- The spelling under which a path is remembered. -/
def spelling? (path : Path) (map : SizeMap) : Option Path :=
  (map.entryOf? path).map Prod.fst

/-- Every entry comes before those behind it, and says another path. -/
def Ascending (map : SizeMap) : Prop :=
  map.Pairwise fun a b => a.1.atMost b.1 = true ∧ a.1.sameAs b.1 = false

variable {map listed : SizeMap} {path p : Path} {e : Path × Measured}

theorem find?_eq_entryOf? (path : Path) (map : SizeMap) :
    map.find? path = (map.entryOf? path).map Prod.snd := by
  induction map with
  | nil => rfl
  | cons e rest ih =>
    obtain ⟨q, m⟩ := e
    rw [find?, entryOf?, List.find?_cons]
    cases q.sameAs path with
    | true => rfl
    | false => exact ih

/-- An entry is its spelling and what is found. -/
theorem entryOf?_eq (path : Path) (map : SizeMap) :
    map.entryOf? path = (map.spelling? path).bind fun p => (map.find? path).map fun m => (p, m) := by
  rw [spelling?, find?_eq_entryOf?]
  cases map.entryOf? path <;> rfl

theorem insert_ne_nil (path : Path) (m : Measured) (map : SizeMap) : SizeMap.insert path m map ≠ [] := by
  cases map with
  | nil => exact List.cons_ne_nil _ _
  | cons e rest =>
    obtain ⟨q, old⟩ := e
    rw [SizeMap.insert]
    split <;> exact List.cons_ne_nil _ _

/-- A path that is remembered keeps its spelling. -/
theorem spelling?_insert (path p : Path) (m : Measured) (map : SizeMap) :
    (map.insert p m).spelling? path
      = (map.spelling? path).or (if p.sameAs path then some p else none) := by
  induction map with
  | nil =>
    rw [insert, spelling?, entryOf?, List.find?_singleton]
    cases p.sameAs path <;> rfl
  | cons e rest ih =>
    obtain ⟨q, old⟩ := e
    simp only [spelling?, entryOf?] at ih ⊢
    rw [insert]
    cases hq : q.sameAs path with
    | true =>
      -- this entry keeps the spelling, whether it is the one that is stored or not
      cases q.sameAs p <;> simp [hq]
    | false =>
      cases hqp : q.sameAs p with
      | true =>
        have hp : p.sameAs path = false := by
          rw [Bool.eq_false_iff]
          intro hp
          exact Bool.false_ne_true (hq.symm.trans (Path.sameAs_trans hqp hp))
        simp [hq, hp]
      | false =>
        simp only [Bool.false_eq_true, if_false, List.find?_cons, hq]
        exact ih

/-! ### Entries of distinct paths -/

theorem sameAs_of_entryOf? (h : map.entryOf? path = some e) : e.1.sameAs path = true :=
  List.find?_some (p := fun e : Path × Measured => e.1.sameAs path) h

theorem Distinct.entryOf?_eq_some_iff (h : Distinct map) :
    map.entryOf? path = some e ↔ e ∈ map ∧ e.1.sameAs path = true := by
  refine ⟨fun he => ⟨List.mem_of_find?_eq_some he, sameAs_of_entryOf? he⟩, ?_⟩
  rintro ⟨he, hpath⟩
  have hsome : (map.entryOf? path).isSome = true := List.find?_isSome.2 ⟨e, he, hpath⟩
  obtain ⟨d, hd⟩ := Option.isSome_iff_exists.1 hsome
  have hsame : d.1.sameAs e.1 = true :=
    Path.sameAs_trans (sameAs_of_entryOf? hd) (Path.sameAs_comm .. ▸ hpath)
  rwa [h.eq_of_sameAs (List.mem_of_find?_eq_some hd) he hsame] at hd

theorem Distinct.entryOf?_perm (h : Distinct map) (hperm : map ~ listed) (path : Path) :
    map.entryOf? path = listed.entryOf? path := by
  ext e
  rw [h.entryOf?_eq_some_iff, (h.perm hperm).entryOf?_eq_some_iff, hperm.mem_iff]

/-- A path has one entry at most. -/
theorem Distinct.filter_sameAs (h : Distinct map) (path : Path) :
    map.filter (fun e => e.1.sameAs path) = (map.entryOf? path).toList := by
  have hmem : ∀ e, e ∈ map.filter (fun e => e.1.sameAs path) ↔ e ∈ (map.entryOf? path).toList := fun e => by
    rw [List.mem_filter, Option.mem_toList, h.entryOf?_eq_some_iff]
  have hperm : map.filter (fun e => e.1.sameAs path) ~ (map.entryOf? path).toList :=
    (List.perm_ext_iff_of_nodup (h.nodup.filter _) (by cases map.entryOf? path <;> simp)).2 hmem
  cases he : map.entryOf? path with
  | none =>
    rw [he] at hperm
    exact hperm.eq_nil
  | some e =>
    rw [he] at hperm
    exact List.perm_singleton.1 hperm

/-- Entries are in ascending order in one way only. -/
theorem Ascending.eq_of_perm (h : map.Ascending) (hlisted : listed.Ascending) (hperm : map ~ listed) :
    map = listed := by
  refine List.Perm.eq_of_pairwise (fun a b _ _ hab hba => ?_) h hlisted hperm
  exact absurd (hab.2.symm.trans (Path.sameAs_of_atMost hab.1 hba.1)) Bool.false_ne_true

theorem Distinct.ascending_sorted (h : Distinct map) : map.sorted.Ascending :=
  (pairwise_sorted map).and (h.perm (sorted_perm map).symm)

end SizeMap

/-! ### The entry that is due -/

/-- The spelling under which a path was stored first. -/
def firstSpelling? (path : Path) (past : List (Timestamp × Use)) : Option Path :=
  past.findSome? fun
    | (_, .store p _) => if p.sameAs path then some p else none
    | _ => none

/-- The entry that is due to a path: the spelling that came first, with what was stored last. -/
def entryDue? (path : Path) (past : List (Timestamp × Use)) : Option (Path × Measured) :=
  (firstSpelling? path past).bind fun p => (lastStored? path past).map fun last => (p, measuredOf last)

theorem firstSpelling?_store (path : Path) (past : List (Timestamp × Use)) (now : Timestamp) (p : Path)
    (size : UInt64) :
    firstSpelling? path (past ++ [(now, .store p size)])
      = (firstSpelling? path past).or (if p.sameAs path then some p else none) := by
  unfold firstSpelling?
  rw [List.findSome?_append, List.findSome?_singleton]

theorem firstSpelling?_of_not_store (path : Path) (past : List (Timestamp × Use)) (now : Timestamp)
    {use : Use} (h : use.isStore = false) :
    firstSpelling? path (past ++ [(now, use)]) = firstSpelling? path past := by
  unfold firstSpelling?
  rw [List.findSome?_append, List.findSome?_singleton]
  cases use with
  | store p size => cases h
  | load p => exact Option.or_none
  | loadPersisted p => exact Option.or_none
  | reopen => exact Option.or_none

/-- A size was stored. -/
def hasStored (past : List (Timestamp × Use)) : Bool :=
  past.any fun u => u.2.isStore

/-! ### Histories -/

namespace Cache

/-- The cache and the file system after one use after the other, each at its time. -/
def after (c : Cache) (fs : FileSystem) (cwd : List String) : List (Timestamp × Use) → Cache × FileSystem
  | [] => (c, fs)
  | (now, use) :: rest =>
    match c.reply fs cwd now use with
    | (c, fs, _) => c.after fs cwd rest

/-- What a cache remembers while it is open. -/
def sizes : Cache → SizeMap
  | memory _ sizes => sizes
  | file _ _ sizes => sizes
  | _ => []

end Cache

/-- A cache is opened on a disk, and then used. -/
structure History where
  fs : FileSystem
  cwd : List String
  file : Path
  ttl : Option Nat
  uses : List (Timestamp × Use)

namespace History

/-- The cache that was just opened. -/
def opened (h : History) : Cache :=
  .openFile h.fs h.cwd h.file h.ttl

/-- The cache and the disk in the end. -/
def ended (h : History) : Cache × FileSystem :=
  h.opened.after h.fs h.cwd h.uses

/-- The map in the end. -/
def map (h : History) : SizeMap :=
  h.ended.1.sizes

/-- What can be read in the file in the end. -/
def text? (h : History) : Option String :=
  (h.ended.2.read h.cwd h.file).toOption

/-- The cache starts without its file, nothing is in the way of the file, the clock does not run over, and
nothing is refused. -/
structure Succeeds (h : History) : Prop where
  wellFormed : h.fs.WellFormed
  unobstructed : ∀ now, SizeMap.Unobstructed (SizeMap.makeParent h.fs h.cwd now h.file).1 h.cwd h.file
  inTime : ∀ u ∈ h.uses, u.1.secs ≤ Timestamp.maxSecs
  stored : ∀ r ∈ h.opened.replies h.fs h.cwd h.uses, r.isRefused = false

end History

/-! ### One use -/

open SizeMap

variable {start fs : FileSystem} {cwd : List String} {file path : Path} {past uses : List (Timestamp × Use)}
  {map : SizeMap} {now : Timestamp} {size : UInt64} {ttl : Option Nat}

/-- Nothing was stored and nothing happened, or the file holds the whole map. -/
inductive Filed (start : FileSystem) (cwd : List String) (file : Path) (past : List (Timestamp × Use)) :
    SizeMap → FileSystem → Prop
  | untouched (hpast : hasStored past = false) : Filed start cwd file past [] start
  | written {map : SizeMap} {fs : FileSystem} (hpast : hasStored past = true) (hmap : map ≠ [])
      (hfile : Holding fs cwd file map.encode) : Filed start cwd file past map fs

theorem Filed.isEmpty (h : Filed start cwd file past map fs) : map.isEmpty = !hasStored past := by
  cases h with
  | untouched hpast =>
    rw [hpast]
    rfl
  | written hpast hmap hfile =>
    rw [hpast]
    simpa using hmap

/-- The map holds the entries that are due, and the file the map. -/
structure Listing (start : FileSystem) (cwd : List String) (file : Path) (past : List (Timestamp × Use))
    (map : SizeMap) (fs : FileSystem) : Prop where
  remembers : Remembers past map
  spelled : ∀ path, map.spelling? path = firstSpelling? path past
  filed : Filed start cwd file past map fs

/-- **The entries** of the map are those that are due. -/
theorem Listing.entryOf? (h : Listing start cwd file past map fs) (path : Path) :
    map.entryOf? path = entryDue? path past := by
  rw [entryOf?_eq, h.spelled, h.remembers.found, entryDue?]
  simp only [Option.map_map]
  rfl

theorem Listing.pass (h : Listing start cwd file past map fs) (now : Timestamp) {use : Use}
    (huse : use.isStore = false) : Listing start cwd file (past ++ [(now, use)]) map fs := by
  have hsame : hasStored (past ++ [(now, use)]) = hasStored past := by
    simp [hasStored, huse]
  refine ⟨h.remembers.pass now huse, fun path => ?_, ?_⟩
  · rw [firstSpelling?_of_not_store path past now huse, h.spelled]
  · cases h.filed with
    | untouched hpast => exact .untouched (hsame.trans hpast)
    | written hpast hmap hfile => exact .written (hsame.trans hpast) hmap hfile

section Uses

variable (hwf : start.WellFormed)
  (hfree : ∀ now, Unobstructed (makeParent start cwd now file).1 cwd file)

include hfree

/-- Nothing can be read in the file before anything was stored. -/
theorem read_start : ∃ e, start.read cwd file = .error e := by
  cases hread : start.read cwd file with
  | error e => exact ⟨e, rfl⟩
  | ok text =>
    obtain ⟨e, he⟩ := (hfree none).absent
    rw [(Prepared.none.parent none).read hread] at he
    cases he

include hwf in
/-- **Storing** a size that is not refused. -/
theorem Listing.store (h : Listing start cwd file past map fs) (hnow : now.secs ≤ Timestamp.maxSecs)
    {gs : FileSystem}
    (hpersist : (map.insert path (measuredOf (now, size))).persist fs cwd (some now) file = (gs, .ok ())) :
    Listing start cwd file (past ++ [(now, .store path size)])
      (map.insert path (measuredOf (now, size))) gs := by
  refine ⟨h.remembers.store hnow, fun other => ?_, .written ?_ (SizeMap.insert_ne_nil _ _ _) ?_⟩
  · rw [spelling?_insert, firstSpelling?_store, h.spelled]
  · simp [hasStored, Use.isStore]
  · cases h.filed with
    | untouched hpast => exact (hfree _).persist hwf hpersist
    | written hpast hmap hfile => exact hfile.persist hpersist

/-- **Opening again** finds the entries that were there, in the order of the file. -/
theorem Listing.reopen (h : Listing start cwd file past map fs) (now : Timestamp) :
    Listing start cwd file (past ++ [(now, .reopen)]) (SizeMap.load fs cwd file) fs := by
  cases hfiled : h.filed with
  | untouched hpast =>
    obtain ⟨e, he⟩ := read_start hfree
    rw [load_of_error he]
    exact h.pass now rfl
  | written hpast hmap hfile =>
    have hdistinct := h.remembers.distinct
    have hperm := sorted_perm map
    rw [load_of_read hfile.2 hdistinct h.remembers.words]
    have hsorted : Listing start cwd file past map.sorted fs := by
      refine ⟨h.remembers.sorted, fun path => ?_, .written hpast ?_ ?_⟩
      · rw [← h.spelled, spelling?, spelling?, hdistinct.entryOf?_perm hperm.symm]
      · exact fun hnil => hmap (hnil ▸ hperm).nil_eq.symm
      · rwa [← encode_perm hdistinct hperm.symm]
    exact hsorted.pass now rfl

include hwf

/-- **One use** that is not refused: the cache answers what is due. -/
theorem Listing.reply (h : Listing start cwd file past map fs) (hnow : now.secs ≤ Timestamp.maxSecs)
    (use : Use) (hstored : ((Cache.file file ttl map).reply fs cwd now use).2.2.isRefused = false) :
    ∃ later gs, (Cache.file file ttl map).reply fs cwd now use
        = (.file file ttl later, gs, due ttl past (now, use)) ∧
      Listing start cwd file (past ++ [(now, use)]) later gs := by
  cases use with
  | store path size =>
    rw [Cache.reply, Cache.store] at hstored ⊢
    dsimp only at hstored ⊢
    cases hpersist : (map.insert path ⟨size.toNat, now.unixSeconds⟩).persist fs cwd (some now) file with
    | mk gs done =>
      rw [hpersist] at hstored
      cases done with
      | error e => cases hstored
      | ok _ => exact ⟨_, gs, rfl, h.store hwf hfree hnow hpersist⟩
  | load path =>
    refine ⟨map, fs, ?_, h.pass now rfl⟩
    rw [← h.remembers.fresh? ttl now path]
    rfl
  | loadPersisted path =>
    refine ⟨map, fs, ?_, h.pass now rfl⟩
    rw [← h.remembers.size? ttl now path]
    rfl
  | reopen => exact ⟨_, fs, rfl, h.reopen hfree now⟩

end Uses

/-! ### One use after the other -/

/-- **One use after the other** keeps what the map and the file hold. -/
theorem Listing.after (hwf : start.WellFormed)
    (hfree : ∀ now, Unobstructed (makeParent start cwd now file).1 cwd file)
    (h : Listing start cwd file past map fs) (htimes : ∀ u ∈ uses, u.1.secs ≤ Timestamp.maxSecs)
    (hstored : ∀ r ∈ (Cache.file file ttl map).replies fs cwd uses, r.isRefused = false) :
    ∃ later gs, (Cache.file file ttl map).after fs cwd uses = (.file file ttl later, gs) ∧
      Listing start cwd file (past ++ uses) later gs := by
  induction uses generalizing past map fs with
  | nil => exact ⟨map, fs, rfl, by rwa [List.append_nil]⟩
  | cons u uses ih =>
    obtain ⟨now, use⟩ := u
    rw [Cache.replies] at hstored
    obtain ⟨later, gs, hreply, hlater⟩ := h.reply hwf hfree (htimes (now, use) List.mem_cons_self)
      use (hstored _ List.mem_cons_self)
    rw [hreply] at hstored
    rw [Cache.after, hreply]
    have hrest := ih hlater (fun u hu => htimes u (List.mem_cons_of_mem _ hu))
      fun r hr => hstored r (List.mem_cons_of_mem _ hr)
    rwa [List.append_assoc] at hrest

/-- In the end the map holds the entries that are due, and the file the map. -/
theorem History.Succeeds.listing {h : History} (hends : h.Succeeds) :
    Listing h.fs h.cwd h.file h.uses h.map h.ended.2 := by
  obtain ⟨e, he⟩ := read_start hends.unobstructed
  have hopened : h.opened = .file h.file h.ttl [] := by
    rw [opened, Cache.openFile, load_of_error he]
  have hstart : Listing h.fs h.cwd h.file [] [] h.fs := ⟨.nil, fun _ => rfl, .untouched rfl⟩
  have hstored : ∀ r ∈ (Cache.file h.file h.ttl []).replies h.fs h.cwd h.uses, r.isRefused = false :=
    hopened ▸ hends.stored
  obtain ⟨later, gs, hafter, hlater⟩ :=
    hstart.after hends.wellFormed hends.unobstructed hends.inTime hstored
  rw [← hopened] at hafter
  rw [map, ended, hafter]
  exact hlater

/-- What is read in the file in the end: the list of the map, as soon as something was stored. -/
theorem History.Succeeds.text? {h : History} (hends : h.Succeeds) :
    h.text? = if h.map.isEmpty then none else some h.map.encode := by
  obtain ⟨e, he⟩ := read_start hends.unobstructed
  have hfiled := hends.listing.filed
  unfold History.text?
  generalize h.ended.2 = fs at hfiled
  generalize h.map = map at hfiled
  cases hfiled with
  | untouched hpast =>
    rw [he]
    rfl
  | written hpast hmap hfile =>
    rw [hfile.2, if_neg (by simpa using hmap)]
    rfl

/-- **The file of a cache** lists what was stored, as soon as anything was: every path once, under the
spelling that came first, with the size and the time that were stored last, and the paths in ascending
order of their components.  Its text does not depend on anything but the entries of the map. -/
theorem file_lists_what_was_stored {h : History} (hends : h.Succeeds) :
    (∃ listed : SizeMap,
      h.text? = (if hasStored h.uses then some (Json.array (listed.map entryJson)).pretty else none) ∧
        (∀ text, h.text? = some text → entries? text = some listed) ∧
        listed ~ h.map ∧ listed.Ascending ∧
        ∀ path, listed.filter (fun e => e.1.sameAs path) = (entryDue? path h.uses).toList) ∧
      ∀ k : History, k.Succeeds → k.map ~ h.map → k.text? = h.text? := by
  have hlisting := hends.listing
  have hdistinct := hlisting.remembers.distinct
  have hperm := sorted_perm h.map
  have hempty : h.map.isEmpty = !hasStored h.uses := hlisting.filed.isEmpty
  refine ⟨⟨h.map.sorted, ?_, fun text htext => ?_, hperm, hdistinct.ascending_sorted, fun path => ?_⟩,
    fun k hk hsame => ?_⟩
  · rw [hends.text?, hempty]
    cases hasStored h.uses <;> rfl
  · rw [hends.text?] at htext
    split at htext
    · cases htext
    · cases htext
      exact entries?_encode hlisting.remembers.words
  · rw [(hdistinct.perm hperm.symm).filter_sameAs, ← hdistinct.entryOf?_perm hperm.symm, hlisting.entryOf?]
  · rw [hk.text?, hends.text?, encode_perm hk.listing.remembers.distinct hsame, hsame.isEmpty_eq]

/-! ### A few histories -/

namespace History

/-- A path is stored, another one whose text comes first, and the first one again under another spelling. -/
def storedTwice : History :=
  ⟨empty none, [], ⟨"c.json"⟩, some 60,
    [(.ofUnixSeconds 100, .store ⟨"/a/b"⟩ 2), (.ofUnixSeconds 90, .store ⟨"/a-b"⟩ 1),
      (.ofUnixSeconds 80, .store ⟨"//a/./b/"⟩ 3)]⟩

/-- The same entries, stored the other way round before and after the cache is opened again. -/
def storedBackwards : History :=
  ⟨empty none, [], ⟨"c.json"⟩, none,
    [(.ofUnixSeconds 90, .store ⟨"/a-b"⟩ 1), (.ofUnixSeconds 90, .reopen),
      (.ofUnixSeconds 80, .store ⟨"/a/b"⟩ 3)]⟩

theorem unobstructed_empty (now : Option Timestamp) :
    Unobstructed (makeParent (empty none) [] now ⟨"c.json"⟩).1 [] ⟨"c.json"⟩ := by
  rw [makeParent_of_bare (empty none) [] now (by decide +kernel)]
  exact ⟨⟨.noEntry, rfl⟩, nofun, nofun, nofun⟩

theorem two_orders_give_one_text :
    storedTwice.Succeeds ∧ storedBackwards.Succeeds ∧ storedBackwards.map ~ storedTwice.map ∧
      storedBackwards.text? = storedTwice.text? ∧
      storedTwice.text? = some (Json.array
        ([(⟨"/a/b"⟩, ⟨3, 80⟩), (⟨"/a-b"⟩, ⟨1, 90⟩)].map entryJson)).pretty := by
  have htwice : storedTwice.Succeeds :=
    ⟨wellFormed_empty none, unobstructed_empty, by decide, by decide +kernel⟩
  have hbackwards : storedBackwards.Succeeds :=
    ⟨wellFormed_empty none, unobstructed_empty, by decide, by decide +kernel⟩
  have htwiceMap : storedTwice.map = [(⟨"/a/b"⟩, ⟨3, 80⟩), (⟨"/a-b"⟩, ⟨1, 90⟩)] := by decide +kernel
  have hbackwardsMap : storedBackwards.map = [(⟨"/a-b"⟩, ⟨1, 90⟩), (⟨"/a/b"⟩, ⟨3, 80⟩)] := by decide +kernel
  have hperm : storedBackwards.map ~ storedTwice.map := by
    rw [htwiceMap, hbackwardsMap]
    exact List.Perm.swap ..
  obtain ⟨⟨listed, htext, -, hlisted, hascending, -⟩, hsame⟩ := file_lists_what_was_stored htwice
  refine ⟨htwice, hbackwards, hperm, hsame _ hbackwards hperm, ?_⟩
  rw [htwiceMap] at hlisted
  rw [htext, hascending.eq_of_perm (by unfold Ascending; decide +kernel) hlisted]
  rfl

/-- One size is stored. -/
def storedOnce (fs : FileSystem) (file : Path) : History :=
  ⟨fs, [], file, some 60, [(.ofUnixSeconds 100, .store ⟨"/p"⟩ 5)]⟩

/-- Nothing was in the file, the size was stored and is remembered, but the file does not list it. -/
def Loses (h : History) : Prop :=
  (h.fs.read h.cwd h.file).toOption = none ∧ h.opened.replies h.fs h.cwd h.uses = [.stored] ∧
    h.map = [(⟨"/p"⟩, ⟨5, 100⟩)] ∧ h.text?.bind entries? = none

/-- **Three disks on which a list is lost**: a link to the file, or to a device, stands where the draft is
written and takes the name of the file; or the path of the file leads through the link that it replaces. -/
theorem links_take_the_place_of_the_list :
    (storedOnce Life.linkedDisk ⟨"c.json"⟩).Loses ∧ (storedOnce Life.linkToDevice ⟨"c.json"⟩).Loses ∧
      (storedOnce Life.linkToDirectory ⟨"c.json/../c.json"⟩).Loses := by
  unfold Loses
  decide +kernel

end History

end DiskUsage
