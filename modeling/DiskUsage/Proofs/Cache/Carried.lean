import DiskUsage.Proofs.Cache.Listed
import DiskUsage.Proofs.Cache.Writing

/-!
# Copies that are written to a disk

The writes of callers that store sizes in one cache are carried out on a disk.  As long as nothing is in the
way of the file, its text is always that of the last copy that was written, and this copy is what is loaded
from it, in the order of the paths.

* `SizeMap.Kept`: the file holds a map, or there is none and nothing is in its way; `Kept.persist`, `Kept.load`.
* `Writers.InWords`: what is stored fits the words of the file.
* `Writers.Carried`: a disk on which a run is carried out; `Carried.step`: one step.
* `Writers.written_copy_is_loaded`: what is loaded after a run.
-/

namespace DiskUsage

open FileSystem

namespace SizeMap

variable {fs gs : FileSystem} {cwd : List String} {now : Option Timestamp} {file : Path} {map copy : SizeMap}

/-- The file holds the map, or the map is empty, there is no file and nothing is in its way. -/
inductive Kept (fs : FileSystem) (cwd : List String) (file : Path) : SizeMap → Prop
  | nothing (hwf : fs.WellFormed) (hfree : ∀ now, Unobstructed (makeParent fs cwd now file).1 cwd file) :
      Kept fs cwd file []
  | written {map : SizeMap} (h : Holding fs cwd file map.encode) : Kept fs cwd file map

/-- A copy that is written takes the place of what was kept. -/
theorem Kept.persist (h : Kept fs cwd file map) (hpersist : copy.persist fs cwd now file = (gs, .ok ())) :
    Kept gs cwd file copy := by
  cases h with
  | nothing hwf hfree => exact .written ((hfree now).persist hwf hpersist)
  | written h => exact .written (h.persist hpersist)

/-- What is kept is loaded, in the order of the paths. -/
theorem Kept.load (h : Kept fs cwd file map) (hdistinct : Distinct map) (hwords : ∀ e ∈ map, Words e) :
    SizeMap.load fs cwd file = map.sorted := by
  cases h with
  | nothing hwf hfree =>
    obtain ⟨e, he⟩ := read_start hfree
    exact (load_of_error he).trans List.mergeSort_nil.symm
  | written h => exact load_of_read h.2 hdistinct hwords

end SizeMap

namespace Writers

open SizeMap

variable {w v : Writers} {i : Nat} {fs : FileSystem} {cwd : List String} {file : Path} {opened : SizeMap}
  {stores : List (Path × Measured)}

/-- What is stored, or was, fits the words of the file. -/
structure InWords (w : Writers) : Prop where
  stores : ∀ s ∈ w.stores, Words (s.path, s.measured)
  inserted : ∀ e ∈ w.inserted, Words e

theorem inWords_start (hstores : ∀ e ∈ stores, Words e) : InWords (start opened stores) where
  stores := by
    intro s hs
    obtain ⟨e, he, rfl⟩ := List.mem_map.1 hs
    exact hstores e he
  inserted := nofun

/-- A caller that moves on stores what it did. -/
theorem words_move (h : InWords w) {s : Storing} (hs : w.stores[i]? = some s) (x : Writer) :
    ∀ t ∈ (w.move i s x).stores, Words (t.path, t.measured) := by
  intro t ht
  obtain ⟨j, hj⟩ := List.mem_iff_getElem?.1 ht
  rcases stores_move hj with ⟨-, rfl⟩ | ⟨-, hother⟩
  · exact h.stores s (List.mem_of_getElem? hs)
  · exact h.stores t (List.mem_of_getElem? hother)

theorem Step.inWords (hstep : Step w i v) (h : InWords w) : InWords v := by
  cases hstep with
  | @insert s hs hw =>
    refine ⟨words_move h hs .waiting, fun e he => ?_⟩
    rcases List.mem_append.1 he with he | he
    · exact h.inserted e he
    · cases List.mem_singleton.1 he
      exact h.stores s (List.mem_of_getElem? hs)
  | lock hs hw hfree => exact ⟨words_move h hs _, h.inserted⟩
  | copy hs hw he => exact ⟨words_move h hs _, h.inserted⟩
  | finish hs hw => exact ⟨words_move h hs _, h.inserted⟩
  | write hs hw => exact ⟨words_move h hs _, h.inserted⟩
  | release hs hw => exact ⟨words_move h hs _, h.inserted⟩

/-- The file always has distinct paths, and what fits its words. -/
theorem file_run (hopened : opened.Distinct) (hwords : ∀ e ∈ opened, Words e)
    (hstores : ∀ e ∈ stores, Words e) (schedule : List (Nat × Option Path)) :
    ((start opened stores).run schedule).file.Distinct ∧
      ∀ e ∈ ((start opened stores).run schedule).file, Words e := by
  obtain ⟨hsame, -, -, owners, covered, -, hlaw⟩ := lawful_run hopened stores schedule
  have hin : InWords ((start opened stores).run schedule) :=
    run_induction InWords (fun hstep h => hstep.inWords h) (inWords_start hstores) schedule
  refine ⟨hlaw.file.distinct, fun e he => ?_⟩
  obtain ⟨j, -, -, hmoment⟩ := hlaw.file.known e he
  rw [moment, hsame] at hmoment
  exact words_insertAll hwords (fun d hd => hin.inserted d (List.mem_of_mem_take hd)) e hmoment

/-- The callers have taken the steps of a run, and the disk keeps what their file holds. -/
def Carried (opened : SizeMap) (stores : List (Path × Measured)) (cwd : List String) (file : Path)
    (s : Writers × FileSystem) : Prop :=
  (∃ schedule, s.1 = (start opened stores).run schedule) ∧ Kept s.2 cwd file s.1.file

/-- **One step**: what a caller writes is kept on the disk, and no other step changes what the file holds. -/
theorem Carried.step {s t : Writers × FileSystem} {turn : Nat × Option Path × Option Timestamp}
    (hstep : stepOn? cwd file s turn = some t) (h : Carried opened stores cwd file s) :
    Carried opened stores cwd file t := by
  obtain ⟨w, fs⟩ := s
  obtain ⟨⟨schedule, hrun⟩, hkept⟩ := h
  obtain ⟨v, hv, hcarried⟩ := Option.bind_eq_some_iff.1 hstep
  dsimp only at hv hcarried hrun hkept
  have hmore : v = (start opened stores).run (schedule ++ [(turn.1, turn.2.1)]) := by
    rw [run_append, ← hrun, run_cons, run_nil, hv, Option.getD_some]
  cases step_of_step? hv with
  | write hs hw =>
    rw [hs, Option.map_some, hw] at hcarried
    dsimp only at hcarried
    split at hcarried
    · next gs hpersist =>
      cases hcarried
      exact ⟨⟨_, hmore⟩, hkept.persist hpersist⟩
    · cases hcarried
  | insert hs hw | lock hs hw hfree | copy hs hw he | finish hs hw | release hs hw =>
    rw [hs, Option.map_some, hw] at hcarried
    cases hcarried
    exact ⟨⟨_, hmore⟩, hkept⟩

/-- **What is loaded** at any time, if every write that is taken ends well and nothing was in the way of the
file at first: the copy that was written last, in the order of its paths, so for every path what the file is
said to have. -/
theorem written_copy_is_loaded (hopened : opened.Distinct) (hwords : ∀ e ∈ opened, Words e)
    (hstores : ∀ e ∈ stores, Words e) (hkept : Kept fs cwd file opened)
    (schedule : List (Nat × Option Path × Option Timestamp)) :
    let s := runOn cwd file schedule (start opened stores, fs)
    (∃ taken, s.1 = (start opened stores).run taken) ∧ load s.2 cwd file = s.1.file.sorted ∧
      ∀ path, (load s.2 cwd file).find? path = s.1.file.find? path := by
  intro s
  have hstart : Carried opened stores cwd file (start opened stores, fs) := ⟨⟨[], rfl⟩, hkept⟩
  obtain ⟨⟨taken, htaken⟩, hfile⟩ : Carried opened stores cwd file s :=
    takeTurns_induction _ (fun hstep h => h.step hstep) hstart schedule
  obtain ⟨hdistinct, hfits⟩ := file_run hopened hwords hstores taken
  rw [← htaken] at hdistinct hfits
  have hload := hfile.load hdistinct hfits
  refine ⟨⟨taken, htaken⟩, hload, fun path => ?_⟩
  rw [hload, ← hdistinct.find?_perm (sorted_perm _).symm]

end Writers

end DiskUsage
