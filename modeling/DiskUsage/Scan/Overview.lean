import DiskUsage.Error.Scan
import DiskUsage.FileSystem.Lookup
import DiskUsage.Path.Clean
import DiskUsage.Scan.Child

/-!
# The size of one directory

The size of a path as a whole: from the cache, from the usage tool, by a walk, or from whatever the
cache ever kept, the first of them that gives a size.  From the home directory its separately
measured subtree is left out.

* `walkSizeExcluding`: the size of a subtree without a part, by a walk.
* `Query`, `Overview`: what is asked during a measurement, in order, and what comes of it.
* `measureOverview`: the size of a path, with the calls of the tool and what to store.
* `measureOverview_cases`: only an absolute clean path is measured.
* `answer_of_store`: what is stored is what is answered.
-/

namespace DiskUsage

/-- The path is the one to leave out. -/
def isExcluded (exclude : Option Path) (path : Path) : Bool :=
  exclude.any fun e => path.sameAs e

/-- The size of a node that is no directory; one that cannot be read has none. -/
def readableSize (reach : Path → Bool) (path : Path) (node : Node) : Nat :=
  if reach path then node.actualSize else 0

mutual
/-- The size of what lies at and below a path, without a part. -/
def sizeExcluding (reach : Path → Bool) (exclude : Option Path) (path : Path) : Node → Nat
  | .dir mode _ entries =>
    if canList reach path mode then entriesSizeExcluding reach exclude path entries else 0
  | .file data => readableSize reach path (.file data)
  | .link target data => readableSize reach path (.link target data)
  | .special accessed => readableSize reach path (.special accessed)

/-- The size of the entries of the directory at this path, without a part. -/
def entriesSizeExcluding (reach : Path → Bool) (exclude : Option Path) (dir : Path) :
    List (String × Node) → Nat
  | [] => 0
  | (name, node) :: rest =>
    (if isExcluded exclude (dir.child name) then 0
     else sizeExcluding reach exclude (dir.child name) node)
      + entriesSizeExcluding reach exclude dir rest
end

/-- The size of what a walk from a root comes across, without a part.  A root that is a link counts
itself and is then followed to the entries below it. -/
def rootSizeExcluding (lstat stat : Path → Except SystemError Node) (root : Path)
    (exclude : Option Path) : Nat :=
  let reach path := (lstat path).toBool
  if isExcluded exclude root then 0
  else
    match lstat root with
    | .error _ => 0
    | .ok (.link target data) =>
      readableSize reach root (.link target data)
        + match stat root with
          | .ok (.dir mode accessed entries) =>
            sizeExcluding reach exclude root (.dir mode accessed entries)
          | _ => 0
    | .ok node => sizeExcluding reach exclude root node

/-- The size of a subtree without a part, in a word. -/
def walkSizeExcluding (lstat stat : Path → Except SystemError Node) (root : Path)
    (exclude : Option Path) : Nat :=
  Number.wrap (rootSizeExcluding lstat stat root exclude)

/-- What the measurement of a path depends on. -/
structure OverviewSetup where
  config : ScanConfig
  tool : UsageTool
  known : KnownSizes
  lstat : Path → Except SystemError Node
  stat : Path → Except SystemError Node

/-- A question to the surroundings, or something to store. -/
inductive Query where
  /-- Does the path lead anywhere? -/
  | reach (path : Path)
  /-- The fresh size in the cache. -/
  | load (path : Path)
  /-- The size that the usage tool gives, without a part. -/
  | measure (path : Path) (part : Option Path)
  /-- The size that a walk finds, without a part. -/
  | walk (path : Path) (part : Option Path)
  /-- Any size that the cache ever kept. -/
  | loadKept (path : Path)
  | store (path : Path) (size : Nat)
  deriving DecidableEq

/-- What the measurement of a path gives. -/
structure Overview where
  /-- What was asked and stored, in order. -/
  asked : List Query
  /-- The paths that the usage tool was called for. -/
  calls : List Path
  /-- The size to store under a path. -/
  store? : Option (Path × Nat)
  answer : Except ScanError Nat

namespace Overview

/-- The measurement fails before anything was asked. -/
def refuse (e : ScanError) : Overview := ⟨[], [], none, .error e⟩

/-- A size that has to be stored. -/
def remember (asked : List Query) (calls : List Path) (path : Path) (size : Nat) : Overview :=
  ⟨asked ++ [.store path size], calls, some (path, size), .ok size⟩

/-- The question comes before all others. -/
def after (q : Query) (v : Overview) : Overview :=
  { v with asked := q :: v.asked }

end Overview

/-- The part of a path that is measured separately: below the home directory, the cached subtree. -/
def excludedPart (c : ScanConfig) (path : Path) : Option Path :=
  if c.isHome path then c.cachedSubtreePath? else none

/-- The measurement of a path by the tool, without a part if there is one to leave out. -/
def UsageTool.measureWithout (tool : UsageTool) (path : Path) : Option Path → Measurement
  | some part => tool.measureExcluding path part
  | none => tool.measure path

/-- The size that a walk finds if it is not zero, or else one that the cache ever kept; with what is
asked for it. -/
def laterSize? (s : OverviewSetup) (path : Path) : List Query × Option Nat :=
  let part := excludedPart s.config path
  let walked := walkSizeExcluding s.lstat s.stat path part
  if 0 < walked then ([.walk path part], some walked)
  else ([.walk path part, .loadKept path], s.known.persisted path)

/-- Measure a path anew. -/
def measureAnew (s : OverviewSetup) (path : Path) : Overview :=
  let part := excludedPart s.config path
  let measured := s.tool.measureWithout path part
  match positiveSize? measured.answer with
  | some size => .remember [.measure path part] measured.calls path size
  | none =>
    let later := laterSize? s path
    let asked := .measure path part :: later.1
    match later.2 with
    | some size => .remember asked measured.calls path size
    | none => ⟨asked, measured.calls, none, .error (.measureFailed path)⟩

/-- Measure a clean path that exists. -/
def measureClean (s : OverviewSetup) (path : Path) : Overview :=
  .after (.load path) <|
    match (s.known.fresh path).filter fun size => decide (0 < size) with
    | some size => ⟨[], [], none, .ok size⟩
    | none => measureAnew s path

/-- Measure a path. -/
def measureOverview (s : OverviewSetup) (path : Path) : Overview :=
  if path.text.isEmpty then .refuse (.invalidPath path .empty)
  else
    let path := path.clean
    if !path.isAbsolute then .refuse (.invalidPath path .notAbsolute)
    else
      .after (.reach path) <|
        match s.stat path with
        | .error e => .refuse (.ofSystem path e)
        | .ok _ => measureClean s path

/-- What is measured is a clean path that starts at the root and exists; nothing but that is asked
about any other. -/
theorem measureOverview_cases (s : OverviewSetup) (path : Path) :
    (∃ asked e, measureOverview s path = ⟨asked, [], none, .error e⟩) ∨
      path.clean.isAbsolute = true ∧
        measureOverview s path = (measureClean s path.clean).after (.reach path.clean) := by
  unfold measureOverview
  split
  · exact .inl ⟨_, _, rfl⟩
  · dsimp only
    split
    · exact .inl ⟨_, _, rfl⟩
    · next habsolute =>
      split
      · exact .inl ⟨_, _, rfl⟩
      · exact .inr ⟨by simpa using habsolute, rfl⟩

/-- What is stored is what is answered. -/
theorem answer_of_store {s : OverviewSetup} {path : Path} {stored : Path × Nat}
    (h : (measureAnew s path).store? = some stored) :
    stored.1 = path ∧ (measureAnew s path).answer = .ok stored.2 := by
  unfold measureAnew at h ⊢
  cases hm : positiveSize? (s.tool.measureWithout path (excludedPart s.config path)).answer with
  | some size =>
    simp only [hm, Overview.remember, Option.some.injEq] at h ⊢
    exact h ▸ ⟨rfl, rfl⟩
  | none =>
    cases hl : (laterSize? s path).2 with
    | some size =>
      simp only [hm, hl, Overview.remember, Option.some.injEq] at h ⊢
      exact h ▸ ⟨rfl, rfl⟩
    | none => simp [hm, hl] at h

end DiskUsage
