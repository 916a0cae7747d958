import DiskUsage.Proofs.Cache.Listed

/-!
# A cache that is closed and opened again

A cache that is kept in a file may be closed and opened again at any time.  As long as every writing of
the file ends well, and nothing is in its way, nobody can tell the difference from a cache in memory that
is never closed.

* `Listing.replies`: a cache that is kept in a file answers what is due.
* `reopened_cache_answers_as_one_in_memory`: the answers of both.
* `link_beside_file_loses_sizes`: a link in the way, and nothing is left after opening again.
-/

namespace DiskUsage

open FileSystem SizeMap

variable {start fs : FileSystem} {cwd : List String} {file : Path} {past uses : List (Timestamp × Use)}
  {map : SizeMap} {ttl : Option Nat}

/-- A cache that is kept in a file answers one use after the other with what is due, if nothing is
refused. -/
theorem Listing.replies (hwf : start.WellFormed)
    (hfree : ∀ now, Unobstructed (makeParent start cwd now file).1 cwd file)
    (h : Listing start cwd file past map fs) (htimes : ∀ u ∈ uses, u.1.secs ≤ Timestamp.maxSecs)
    (hstored : ∀ r ∈ (Cache.file file ttl map).replies fs cwd uses, r.isRefused = false) :
    (Cache.file file ttl map).replies fs cwd uses = dues ttl past uses := by
  induction uses generalizing past map fs with
  | nil => rfl
  | cons u uses ih =>
    obtain ⟨now, use⟩ := u
    rw [Cache.replies] at hstored ⊢
    obtain ⟨later, gs, hreply, hlater⟩ := h.reply hwf hfree (htimes (now, use) List.mem_cons_self) use
      (hstored _ List.mem_cons_self)
    rw [hreply] at hstored ⊢
    dsimp only at hstored ⊢
    rw [dues, ih hlater (fun u hu => htimes u (List.mem_cons_of_mem _ hu))
      fun r hr => hstored r (List.mem_cons_of_mem _ hr)]

/-- **Closing and opening again** makes no difference: a cache that starts without its file answers as one
in memory that is never closed, whatever is stored, loaded and opened again, if every writing ends well
and nothing is in the way once the directory of the file is made: where the draft is written there is
no special file, and no link to where the path of the file leads, and the file is no link to a directory.
Each answer is what is due: the size that was stored last for the path, or, where only a fresh one is asked
for, that size if it is not older than its time-to-live. -/
theorem reopened_cache_answers_as_one_in_memory (hwf : fs.WellFormed)
    (hfree : ∀ now, Unobstructed (makeParent fs cwd now file).1 cwd file)
    (htimes : ∀ u ∈ uses, u.1.secs ≤ Timestamp.maxSecs)
    (hstored : ∀ r ∈ (Cache.openFile fs cwd file ttl).replies fs cwd uses, r.isRefused = false) :
    (Cache.openFile fs cwd file ttl).replies fs cwd uses = (Cache.inMemory ttl).replies fs cwd uses ∧
      ∀ past u rest, uses = past ++ u :: rest →
        ((Cache.openFile fs cwd file ttl).replies fs cwd uses)[past.length]? = some (due ttl past u) := by
  obtain ⟨e, he⟩ := read_start hfree
  have hopened : Cache.openFile fs cwd file ttl = .file file ttl [] := by
    rw [Cache.openFile, load_of_error he]
  have hstart : Listing fs cwd file [] [] fs := ⟨.nil, fun _ => rfl, .untouched rfl⟩
  rw [hopened] at hstored ⊢
  have hfile := hstart.replies hwf hfree htimes hstored
  refine ⟨hfile.trans (replies_memory Remembers.nil htimes).symm, fun past u rest huses => ?_⟩
  rw [hfile, huses, dues_getElem?]
  rfl

/-! ### Two runs -/

/-- The largest size is stored for a path with a tab in it, the cache is opened again, and the size is
asked for under two spellings. -/
def storeAndReopen : List (Timestamp × Use) :=
  [(.ofUnixSeconds 100, .store ⟨"/café\t"⟩ 18446744073709551615), (.ofUnixSeconds 130, .reopen),
    (.ofUnixSeconds 160, .load ⟨"//café\t/"⟩), (.ofUnixSeconds 161, .load ⟨"/café\t"⟩),
    (.ofUnixSeconds 161, .loadPersisted ⟨"/café\t"⟩)]

/-- A size that was stored is fresh for a minute, although the cache was opened again. -/
theorem stored_size_is_fresh_for_a_minute :
    (Cache.openFile (empty none) [] ⟨"c.json"⟩ (some 60)).replies (empty none) [] storeAndReopen
        = (Cache.inMemory (some 60)).replies (empty none) [] storeAndReopen ∧
      ((Cache.openFile (empty none) [] ⟨"c.json"⟩ (some 60)).replies (empty none) [] storeAndReopen)[2]?
        = some (.size (some 18446744073709551615)) := by
  have hwf : (empty none).WellFormed := wellFormed_empty none
  have htimes : ∀ u ∈ storeAndReopen, u.1.secs ≤ Timestamp.maxSecs := by decide
  have hstored : ∀ r ∈ (Cache.openFile (empty none) [] ⟨"c.json"⟩ (some 60)).replies (empty none) []
      storeAndReopen, r.isRefused = false := by decide +kernel
  obtain ⟨hsame, hdue⟩ := reopened_cache_answers_as_one_in_memory hwf History.unobstructed_empty htimes hstored
  refine ⟨hsame, (hdue (storeAndReopen.take 2) _ (storeAndReopen.drop 3) rfl).trans ?_⟩
  decide +kernel

/-- **A link in the way**: a link stands beside the file, where the list is written first, and leads to
the file.  Every size is stored, but nothing is left once the cache is opened again: the link itself took
the name of the file. -/
theorem link_beside_file_loses_sizes :
    Life.linkedDisk.read [] ⟨"c.json"⟩ = .error .noEntry ∧
      (storeAndReopen.Pairwise fun a b => a.1.toNanos ≤ b.1.toNanos) ∧
      (Cache.openFile Life.linkedDisk [] ⟨"c.json"⟩ (some 60)).replies Life.linkedDisk [] storeAndReopen
        = [.stored, .reopened, .size none, .size none, .size none] ∧
      (Cache.inMemory (some 60)).replies Life.linkedDisk [] storeAndReopen
        = [.stored, .reopened, .size (some 18446744073709551615), .size none,
          .size (some 18446744073709551615)] := by
  decide +kernel

end DiskUsage
