import DiskUsage.Proofs.Progress.Reported
import DiskUsage.Scan.Scanner

/-!
# The progress of a scan

A scan counts the files and links in its root, those that a walk comes to, and those that a fast walk comes
to.  Only the walks look at what they have counted; what lies in the root itself is counted and not looked
at.  So a multiple of the sampling step is published unless it is the number of a file or link in the root,
whichever worker counts that one, and then it is lost for good.

* `Trace.unseen`: the files that progress takes no notice of; `unseen_walk`, `unseen_fastWalk`: no walk has
  any.
* `rootFiles`, `unseen_scanChildren`: those of a scan are the files and links in its root.
* `boundaries_below_the_root_are_published_once`: what the workers of a scan publish, after every schedule.
* `Scanner.exists_run_scan`: what a scanner publishes is one case of it.
-/

open scoped List

namespace DiskUsage

/-- The files that progress takes no notice of. -/
def Trace.unseen (trace : Trace) : Trace :=
  trace.files.filter fun event => !event.isSeen

@[simp] theorem Trace.unseen_append (a b : Trace) : Trace.unseen (a ++ b) = a.unseen ++ b.unseen := by
  simp [unseen, files]

/-! ### Walks -/

theorem unseen_fastWalkFile (reach : Path → Bool) (path : Path) (node : Node) :
    (fastWalkFile reach path node).trace.unseen = [] := by
  unfold fastWalkFile
  split <;> rfl

mutual
/-- Progress takes notice of every file that a fast walk comes to. -/
theorem unseen_fastWalk (reach late : Path → Bool) (path : Path) (node : Node) :
    (fastWalk reach late path node).trace.unseen = [] := by
  cases node with
  | dir mode accessed entries =>
    rw [fastWalk, Sized.after, Trace.unseen_append]
    split
    · rw [unseen_fastWalkEntries]
      rfl
    · rfl
  | file data => exact unseen_fastWalkFile reach path _
  | link target data => exact unseen_fastWalkFile reach path _
  | special accessed => exact unseen_fastWalkFile reach path _

theorem unseen_fastWalkEntries (reach late : Path → Bool) (dir : Path) (entries : List (String × Node)) :
    (fastWalkEntries reach late dir entries).trace.unseen = [] := by
  cases entries with
  | nil => rfl
  | cons e rest =>
    obtain ⟨name, node⟩ := e
    rw [fastWalkEntries, Sized.append, Trace.unseen_append, unseen_fastWalk, unseen_fastWalkEntries]
    rfl
end

theorem unseen_foldedSize (w : WalkSetup) (path : Path) (node : Node) :
    (foldedSize w path node).trace.unseen = [] := by
  unfold foldedSize
  split
  · rfl
  · rw [Sized.after, Trace.unseen_append]
    unfold fastDirSize
    split
    · split
      · rw [Sized.trace_word, unseen_fastWalkEntries]
        rfl
      · rfl
    · rfl

theorem unseen_foldedSizes (w : WalkSetup) (folded : List (Path × Node)) :
    (foldedSizes w folded).trace.unseen = [] := by
  induction folded with
  | nil => rfl
  | cons e rest ih =>
    obtain ⟨path, node⟩ := e
    rw [foldedSizes, Sized.append, Trace.unseen_append, unseen_foldedSize, ih]
    rfl

theorem unseen_walkFile (reach : Path → Bool) (c : ScanConfig) (path : Path) (name : String) (node : Node) :
    (walkFile reach c path name node).trace.unseen = [] := by
  unfold walkFile
  split <;> rfl

mutual
/-- Progress takes notice of every file that a walk comes to. -/
theorem unseen_walk (reach : Path → Bool) (c : ScanConfig) (path : Path) (name : String) (node : Node) :
    (walk reach c path name node).trace.unseen = [] := by
  cases node with
  | dir mode accessed entries =>
    rw [walk]
    split
    · rfl
    · split
      · rw [Walked.append, Trace.unseen_append, unseen_walkEntries]
        rfl
      · rfl
  | file data => exact unseen_walkFile reach c path name _
  | link target data => exact unseen_walkFile reach c path name _
  | special accessed => exact unseen_walkFile reach c path name _

theorem unseen_walkEntries (reach : Path → Bool) (c : ScanConfig) (dir : Path)
    (entries : List (String × Node)) : (walkEntries reach c dir entries).trace.unseen = [] := by
  cases entries with
  | nil => rfl
  | cons e rest =>
    obtain ⟨name, node⟩ := e
    rw [walkEntries, Walked.append, Trace.unseen_append, unseen_walk, unseen_walkEntries]
    rfl
end

theorem unseen_dirSize (w : WalkSetup) (path : Path) (name : String) (node : Node) :
    (dirSize w path name node).trace.unseen = [] := by
  unfold dirSize
  split
  · split
    · rfl
    · split
      · rfl
      · split
        · rfl
        · rw [Walked.finish, Trace.unseen_append, unseen_walkEntries, unseen_foldedSizes]
          rfl
  · rfl

/-! ### Children of the root -/

section Children

variable {s : ChildSetup} {root : Path}

theorem unseen_ofSize {name : String} {path : Path} {used : Option Timestamp} {x : Sized}
    (h : x.trace.unseen = []) : (SizedChild.ofSize name path used x).trace.unseen = [] := by
  rw [SizedChild.ofSize, Trace.unseen_append, h]
  rfl

theorem unseen_ofSubtree {name : String} {path : Path} {used : Option Timestamp} {x : SubtreeSized}
    (h : x.trace.unseen = []) : (SizedChild.ofSubtree name path used x).trace.unseen = [] := by
  unfold SizedChild.ofSubtree
  split
  · rw [Trace.unseen_append, h]
    rfl
  · exact h

/-- A child of the root that is no directory, as it is counted. -/
def Located.counted (c : Located) : Event :=
  .file c.path c.node.actualSize false

/-- The files and links in the root itself that can be read, as they are counted. -/
def rootFiles (s : ChildSetup) (root : Path) (entries : List (String × Node)) : Trace :=
  ((childrenOf root entries).filter fun c => !c.node.isDir && s.readsChild c.path).map Located.counted

/-- A child of the root that is no directory is counted if it can be read. -/
theorem happening_of_isDir_eq_false (s : ChildSetup) (root : Path) {c : Located}
    (h : c.node.isDir = false) :
    happening s root c = if s.readsChild c.path then [c.counted] else [.error] := by
  obtain ⟨path, name, node⟩ := c
  cases node with
  | dir mode accessed entries => cases h
  | _ =>
    simp only [happening, Node.kind, ScanConfig.classify, sizeChild]
    split <;> rfl

/-- Of a child of the root progress takes no notice if it is no directory. -/
theorem unseen_happening (s : ChildSetup) (root : Path) (c : Located) :
    (happening s root c).unseen
      = if !c.node.isDir && s.readsChild c.path then [c.counted] else [] := by
  obtain ⟨path, name, node⟩ := c
  cases node with
  | dir mode accessed entries =>
    cases hden : s.config.isDenylisted name (s.config.contextOf root).isFileSystemRoot with
    | true =>
      simp only [happening, Node.kind, ScanConfig.classify, hden, if_true, sizeChild]
      rfl
    | false =>
      rw [happening_of_allowed hden]
      cases s.config.isHome root && name == s.config.cachedSubtreeName with
      | true =>
        rw [if_pos rfl, sizeChild]
        cases s.known.subtreeSize? path with
        | some size => rfl
        | none => exact unseen_ofSubtree (unseen_dirSize _ _ _ _)
      | false =>
        rw [if_neg Bool.false_ne_true]
        cases s.config.shouldFold name path with
        | true => exact unseen_ofSize (unseen_foldedSize _ _ _)
        | false => exact unseen_ofSubtree (unseen_dirSize _ _ _ _)
  | _ =>
    rw [happening_of_isDir_eq_false s root rfl]
    cases s.readsChild path <;> simp [Node.isDir] <;> rfl

/-- **The files of a scan** that progress takes no notice of are those in the root. -/
theorem unseen_scanChildren (s : ChildSetup) (root : Path) (entries : List (String × Node)) :
    (childrenTrace (scanChildren s root entries)).unseen = rootFiles s root entries := by
  rw [childrenTrace_scanChildren, rootFiles]
  induction childrenOf root entries with
  | nil => rfl
  | cons c cs ih =>
    rw [List.flatMap_cons, Trace.unseen_append, ih, unseen_happening, List.filter_cons]
    split <;> rfl

end Children

/-! ### All together -/

/-- A file of a scan is one that progress takes notice of, or one in the root. -/
theorem isSeen_eq {trace : Trace} {event : Event} (hmem : event ∈ trace.files) :
    event.isSeen = !trace.unseen.contains event := by
  rw [Bool.eq_iff_iff, Bool.not_eq_true', List.contains_eq_mem, decide_eq_false_iff_not, Trace.unseen,
    List.mem_filter]
  cases event.isSeen <;> simp [hmem]

/-- Where all files come in some order, the one of a number is one that progress takes notice of unless it
is one of the others. -/
theorem filter_isSeen {happened trace : Trace} (hperm : happened ~ trace) {every : Nat}
    (hevery : 0 < every) :
    (boundaries every happened.files.length).filter (fun n => happened.files[n - 1]?.any Event.isSeen)
      = (boundaries every happened.files.length).filter
          fun n => !happened.files[n - 1]?.any trace.unseen.contains := by
  refine List.filter_congr fun n hn => ?_
  obtain ⟨-, hpos, hle⟩ := (mem_boundaries hevery).1 hn
  have hlt : n - 1 < happened.files.length := by omega
  have hmem : happened.files[n - 1] ∈ trace.files :=
    (hperm.filter _).mem_iff.1 (List.getElem_mem hlt)
  rw [List.getElem?_eq_getElem hlt]
  exact isSeen_eq hmem

theorem rootFiles_eq_nil (s : ChildSetup) {root : Path} {entries : List (String × Node)}
    (h : ∀ e ∈ entries, e.2.isDir = true) : rootFiles s root entries = [] := by
  rw [rootFiles, List.map_eq_nil_iff, List.filter_eq_nil_iff]
  intro c hc
  obtain ⟨e, he, rfl⟩ := List.mem_map.1 hc
  simp [h e he]

/-- **The progress of a scan** with a subscriber, however its events are shared out among workers and
whatever the schedule of their steps.  Of the multiples of the sampling step, up to the number of files, each
is published once, unless the file with that number lies in the root itself; then it is not published.  So
where there are only directories in the root, as many snapshots are published as there are multiples. -/
theorem boundaries_below_the_root_are_published_once (setup : ScanSetup) {root : Path}
    {entries : List (String × Node)} (hlist : setup.list root = .ok entries)
    (hstart : setup.startFailure? entries.length = none)
    (hevery : 0 < setup.config.progressEvery.toNat) (hroom : (scan setup root).1.count false < 2 ^ 64)
    {threads : List Trace} (hthreads : threads.flatten ~ (scan setup root).1) (schedule : List Nat) :
    let every := setup.config.progressEvery.toNat
    let s := (Reporting.start every threads).run schedule
    let inRoot (n : Nat) : Bool :=
      s.happened.files[n - 1]?.any (rootFiles setup.toChildSetup root entries).contains
    ∃ r, (scan setup root).2 = .ok r ∧ (∃ more, (s.run more).isDone = true) ∧
      s.feed.lost + s.feed.waiting.length = s.published.length ∧
      (s.isDone = true →
        s.happened ~ (scan setup root).1 ∧ s.happened.files.length = r.filesScanned ∧
        s.published ~ (boundaries every r.filesScanned).filter (fun n => !inRoot n) ∧
        s.published.length + ((boundaries every r.filesScanned).filter inRoot).length
          = r.filesScanned / every ∧
        ((∀ e ∈ entries, e.2.isDir = true) → s.published ~ boundaries every r.filesScanned ∧
          s.published.length = r.filesScanned / every)) := by
  intro every s inRoot
  obtain ⟨trace, htrace⟩ : ∃ trace, trace = (scan setup root).1 := ⟨_, rfl⟩
  have hscan := scan_eq_of_list hlist hstart
  have hunseen : trace.unseen = rootFiles setup.toChildSetup root entries := by
    rw [htrace, hscan]
    exact unseen_scanChildren setup.toChildSetup root entries
  have hresult : ∃ r, (scan setup root).2 = .ok r
      ∧ r.filesScanned = (Counters.zero.after trace).files.toNat := by
    rw [htrace, hscan]
    exact ⟨_, rfl, rfl⟩
  obtain ⟨r, hr, hfiles⟩ := hresult
  rw [← htrace] at hroom hthreads ⊢
  have hkept : Reporting.Kept trace s := Reporting.kept_run hroom hthreads every schedule
  have hsame : s.every = every := Reporting.every_run _ schedule
  refine ⟨r, hr, Reporting.exists_isDone_run s, hkept.sent, fun hdone => ?_⟩
  have hperm : s.happened ~ trace := hkept.happened_perm hdone
  have hlength : s.happened.files.length = r.filesScanned := by
    rw [hfiles, ← Counters.after_perm hperm, ← hkept.counters, hkept.files hroom]
  -- what progress takes no notice of are the files in the root
  have hpublished : s.published ~ (boundaries every r.filesScanned).filter fun n => !inRoot n := by
    have hseen := Reporting.published_perm (hsame ▸ hevery) hkept hdone
    rwa [hsame, filter_isSeen hperm hevery, hunseen, hlength] at hseen
  refine ⟨hperm, hlength, hpublished, ?_, fun hdirs => ?_⟩
  · have hboth := (List.filter_append_perm inRoot (boundaries every r.filesScanned)).length_eq
    rw [List.length_append, length_boundaries] at hboth
    rw [hpublished.length_eq]
    omega
  · have hnone : ∀ n ∈ boundaries every r.filesScanned, (!inRoot n) = true := by
      intro n _
      simp only [inRoot, rootFiles_eq_nil _ hdirs]
      cases s.happened.files[n - 1]? <;> rfl
    rw [List.filter_eq_self.2 hnone] at hpublished
    exact ⟨hpublished, hpublished.length_eq.trans (length_boundaries every _)⟩

/-- A scanner that somebody listens to goes through the events of a scan in order, and publishes what one
worker alone would. -/
theorem Scanner.exists_run_scan (s : Scanner) (w : Surroundings) (root : Path) :
    ∃ schedule,
      let alone := (Reporting.start s.config.progressEvery.toNat [(s.scan w root).trace]).run schedule
      alone.isDone = true ∧ (s.subscribe.scan w root).scanner.feed = alone.feed := by
  have halone : (Reporting.start s.config.progressEvery.toNat [(s.scan w root).trace]).reporters
      = [⟨none, (s.scan w root).trace⟩] := rfl
  obtain ⟨schedule, hdone, hfeed⟩ := Reporting.exists_run_observe _ halone
  exact ⟨schedule, hdone, hfeed.symm⟩

/-- A scan of a directory with these entries, which publishes a snapshot for every file. -/
def eagerScan (entries : List (String × Node)) : ScanSetup :=
  { sampleScan with
    config := { sampleScan.config with progressEvery := 1 }
    list := fun path => if path.text = "/h" then .ok entries else .error (.code 2) }

/-- A file in a directory, and one beside it. -/
def twoFiles : List (String × Node) :=
  [("d", .dir .free none [("a", .file ⟨0, .fill 10, none⟩)]), ("b", .file ⟨0, .fill 5, none⟩)]

/-- The file in the root is counted first, by a second worker, so a snapshot tells of the second file
only. -/
theorem second_of_two_files_is_published :
    let threads : List Trace :=
      [[.file ⟨"/h/d/a"⟩ 10 true, .dir], [.file ⟨"/h/b"⟩ 5 false]]
    let s := (Reporting.start 1 threads).run [1, 0, 0, 0]
    ∃ r, (scan (eagerScan twoFiles) ⟨"/h"⟩).2 = .ok r ∧ s.isDone = true ∧ r.filesScanned = 2 ∧
      s.published ~ [2] := by
  intro threads s
  have hthreads : threads.flatten ~ (scan (eagerScan twoFiles) ⟨"/h"⟩).1 := by decide +kernel
  have hdone : s.isDone = true := by decide +kernel
  have hlist : (eagerScan twoFiles).list ⟨"/h"⟩ = .ok twoFiles := by rfl
  have hstart : (eagerScan twoFiles).startFailure? twoFiles.length = none := by decide +kernel
  obtain ⟨r, hr, -, -, hpublished⟩ := boundaries_below_the_root_are_published_once (eagerScan twoFiles)
    hlist hstart (by decide +kernel) (by decide +kernel) hthreads [1, 0, 0, 0]
  obtain ⟨-, hfiles, hnumbers, -⟩ := hpublished hdone
  have htwo : r.filesScanned = 2 := hfiles.symm.trans (by decide +kernel)
  rw [htwo] at hnumbers
  exact ⟨r, hr, hdone, htwo, hnumbers.trans (.of_eq (by decide +kernel))⟩

/-- A file that is alone in the root makes the only multiple there is, and nothing is published. -/
theorem lone_file_is_not_published :
    let setup := eagerScan [("a", .file ⟨0, .fill 10, none⟩)]
    let s := (Reporting.start 1 [(scan setup ⟨"/h"⟩).1]).run [0]
    ∃ r, (scan setup ⟨"/h"⟩).2 = .ok r ∧ s.isDone = true ∧ r.filesScanned / 1 = 1 ∧
      boundaries 1 r.filesScanned = [1] ∧ s.published = [] ∧ s.feed.waiting = [] := by
  intro setup s
  exact ⟨_, rfl, by decide +kernel, by decide +kernel, by decide +kernel, by decide +kernel,
    by decide +kernel⟩

end DiskUsage
