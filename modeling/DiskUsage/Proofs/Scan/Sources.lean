import DiskUsage.Proofs.Scan.Overview

/-!
# Where the size of a path comes from

The size of a path is asked of four sources in turn, and the first one that has a size is taken.  What is
asked can be told only from a measurement that asks: here it is a dialogue, which learns of the cache, the
tool and the tree nothing but the replies to its questions.  Held with a scanner and its surroundings it is
the measurement of that scanner, and so the measurement asks what the dialogue asks.

* `Query.reply`, `Dialogue`, `Dialogue.run`: replies, dialogues, and what they lead to.
* `viewing`: the dialogue of a measurement; `Source`, `inTurn`: its sources, one after the other.
* `matches_viewing`: it is the measurement, which asks the same.
* `run_inTurn_of_found`, `run_inTurn_of_not_found`: which questions are asked, and what is stored.
* `overview_takes_the_first_source`: both together.
-/

namespace DiskUsage

/-! ### Dialogues -/

namespace Query

/-- What is replied to a question. -/
abbrev Reply : Query → Type
  | reach _ => Except SystemError Unit
  | load _ => Option Nat
  | measure _ _ => Except ToolError Nat
  | walk _ _ => Nat
  | loadKept _ => Option Nat
  | store _ _ => Except ScanError Unit

/-- The reply of a scanner in its surroundings. -/
def reply (s : Scanner) (w : Surroundings) : (q : Query) → q.Reply
  | reach path => (w.fs.stat w.cwd path).map fun _ => ()
  | load path => s.cache.load w.now.unixSeconds path
  | measure path part => (w.tool.measureWithout path part).answer
  | walk path part => walkSizeExcluding (w.fs.lstat w.cwd) (w.fs.stat w.cwd) path part
  | loadKept path => s.cache.loadPersisted path
  | store path size => (s.cache.store w.fs w.cwd w.now path size).2.2

/-- The scanner and the file system after a question; only storing changes them. -/
def after (s : Scanner) (w : Surroundings) : Query → Scanner × FileSystem
  | store path size => s.remember w (some (path, size))
  | _ => (s, w.fs)

/-- The paths that the usage tool is called for. -/
def toolCalls (w : Surroundings) : Query → List Path
  | measure path part => (w.tool.measureWithout path part).calls
  | _ => []

end Query

/-- Questions that depend on the replies to the ones before, and what they lead to. -/
inductive Dialogue (α : Type) where
  | done (answer : α)
  | ask (q : Query) (next : q.Reply → Dialogue α)

/-- A dialogue that was held: what was asked, what is left, and what it led to. -/
structure Talk (α : Type) where
  asked : List Query
  scanner : Scanner
  fs : FileSystem
  answer : α

/-- Hold a dialogue. -/
def Dialogue.run {α : Type} (s : Scanner) (w : Surroundings) : Dialogue α → Talk α
  | .done answer => ⟨[], s, w.fs, answer⟩
  | .ask q next =>
    let (scanner, fs) := q.after s w
    let talk := (next (q.reply s w)).run scanner { w with fs }
    { talk with asked := q :: talk.asked }

/-! ### The sources of a size -/

/-- Where a size may come from. -/
inductive Source where
  | fresh
  | tool
  | walk
  | kept
  deriving DecidableEq

namespace Source

/-- All sources, in the order in which they are asked. -/
def all : List Source := [fresh, tool, walk, kept]

/-- The question to a source. -/
@[reducible] def query (c : ScanConfig) (path : Path) : Source → Query
  | fresh => .load path
  | tool => .measure path (excludedPart c path)
  | walk => .walk path (excludedPart c path)
  | kept => .loadKept path

/-- The size that a reply gives; zero counts only if the cache kept it. -/
def size? (c : ScanConfig) (path : Path) : (source : Source) → (source.query c path).Reply → Option Nat
  | fresh, reply => Option.filter (fun size => decide (0 < size)) reply
  | tool, reply => positiveSize? reply
  | walk, reply => if 0 < (reply : Nat) then some reply else none
  | kept, reply => reply

/-- The size that a source has for a path. -/
def found? (s : Scanner) (w : Surroundings) (path : Path) : Source → Option Nat
  | fresh => (s.cache.load w.now.unixSeconds path).filter fun size => decide (0 < size)
  | tool => positiveSize? (w.tool.measureWithout path (excludedPart s.config path)).answer
  | walk =>
    let walked := walkSizeExcluding (w.fs.lstat w.cwd) (w.fs.stat w.cwd) path (excludedPart s.config path)
    if 0 < walked then some walked else none
  | kept => s.cache.loadPersisted path

theorem size?_reply (s : Scanner) (w : Surroundings) (path : Path) (source : Source) :
    source.size? s.config path ((source.query s.config path).reply s w) = source.found? s w path := by
  cases source <;> rfl

end Source

/-- What is done with a size: one that is not fresh in the cache is stored, whatever comes of that. -/
def settle (path : Path) (size : Nat) : Source → Dialogue (Except ScanError Nat)
  | .fresh => .done (.ok size)
  | _ => .ask (.store path size) fun _ => .done (.ok size)

/-- Ask sources one after the other for the size of a path, until one has it. -/
def inTurn (c : ScanConfig) (path : Path) : List Source → Dialogue (Except ScanError Nat)
  | [] => .done (.error (.measureFailed path))
  | source :: rest =>
    .ask (source.query c path) fun reply =>
      match source.size? c path reply with
      | some size => settle path size source
      | none => inTurn c path rest

/-- The dialogue of a measurement. -/
def viewing (c : ScanConfig) (path : Path) : Dialogue (Except ScanError Nat) :=
  if path.text.isEmpty then .done (.error (.invalidPath path .empty))
  else
    let path := path.clean
    if !path.isAbsolute then .done (.error (.invalidPath path .notAbsolute))
    else
      .ask (.reach path) fun
        | .error e => .done (.error (.ofSystem path e))
        | .ok _ => inTurn c path Source.all

variable {s : Scanner} {w : Surroundings} {path : Path} {source : Source} {size : Nat}

/-! ### One source, and sources in turn -/

/-- The question comes before what follows. -/
def Talk.after {α : Type} (q : Query) (talk : Talk α) : Talk α :=
  { talk with asked := q :: talk.asked }

/-- Asking a source leaves everything as it is. -/
theorem after_query (s : Scanner) (w : Surroundings) (c : ScanConfig) (path : Path) (source : Source) :
    (source.query c path).after s w = (s, w.fs) := by
  cases source <;> rfl

/-- The talk about a size that a source has. -/
def settled (s : Scanner) (w : Surroundings) (path : Path) (size : Nat) (source : Source) :
    Talk (Except ScanError Nat) :=
  if source = .fresh then ⟨[], s, w.fs, .ok size⟩
  else
    let (scanner, fs) := s.remember w (some (path, size))
    ⟨[.store path size], scanner, fs, .ok size⟩

theorem run_settle (s : Scanner) (w : Surroundings) (path : Path) (size : Nat) (source : Source) :
    (settle path size source).run s w = settled s w path size source := by
  cases source <;> rfl

theorem run_inTurn_cons_of_some (h : source.found? s w path = some size) (rest : List Source) :
    (inTurn s.config path (source :: rest)).run s w
      = (settled s w path size source).after (source.query s.config path) := by
  have hsize := (source.size?_reply s w path).trans h
  rw [inTurn, Dialogue.run, after_query, hsize]
  exact congrArg (Talk.after _) (run_settle s w path size source)

theorem run_inTurn_cons_of_none (h : source.found? s w path = none) (rest : List Source) :
    (inTurn s.config path (source :: rest)).run s w
      = ((inTurn s.config path rest).run s w).after (source.query s.config path) := by
  have hsize := (source.size?_reply s w path).trans h
  rw [inTurn, Dialogue.run, after_query, hsize]
  rfl

/-- **The first source that has a size** is the last one that is asked, and its size is the answer. -/
theorem run_inTurn_of_found {before : List Source} (hnone : ∀ b ∈ before, b.found? s w path = none)
    (hfound : source.found? s w path = some size) (rest : List Source) :
    let talk := (inTurn s.config path (before ++ source :: rest)).run s w
    let stored := settled s w path size source
    talk.answer = .ok size ∧ talk.scanner = stored.scanner ∧ talk.fs = stored.fs ∧
      talk.asked = (before ++ [source]).map (Source.query s.config path) ++ stored.asked := by
  induction before with
  | nil =>
    intro talk stored
    have htalk : talk = stored.after (source.query s.config path) := run_inTurn_cons_of_some hfound rest
    have hanswer : stored.answer = .ok size := by
      unfold stored settled
      split <;> rfl
    rw [htalk]
    exact ⟨hanswer, rfl, rfl, rfl⟩
  | cons b before ih =>
    intro talk stored
    obtain ⟨hanswer, hscanner, hfs, hasked⟩ := ih fun b hb => hnone b (List.mem_cons_of_mem _ hb)
    have htalk : talk = ((inTurn s.config path (before ++ source :: rest)).run s w).after
        (b.query s.config path) := run_inTurn_cons_of_none (hnone b List.mem_cons_self) _
    rw [htalk]
    exact ⟨hanswer, hscanner, hfs, congrArg (List.cons _) hasked⟩

/-- Where no source has a size, all of them are asked in vain. -/
theorem run_inTurn_of_not_found {sources : List Source}
    (hnone : ∀ b ∈ sources, b.found? s w path = none) :
    (inTurn s.config path sources).run s w
      = ⟨sources.map (Source.query s.config path), s, w.fs, .error (.measureFailed path)⟩ := by
  induction sources with
  | nil => rfl
  | cons b rest ih =>
    rw [run_inTurn_cons_of_none (hnone b List.mem_cons_self),
      ih fun b hb => hnone b (List.mem_cons_of_mem _ hb)]
    rfl

/-! ### The dialogue is the measurement -/

/-- What a dialogue led to is what a measurement gives, and both ask the same. -/
structure Talk.Matches (talk : Talk (Except ScanError Nat)) (w : Surroundings) (seen : Scanner.Viewed) :
    Prop where
  answers : seen.answers = [talk.answer]
  scanner : seen.scanner = talk.scanner
  fs : seen.fs = talk.fs
  asked : seen.overview.asked = talk.asked
  calls : seen.overview.calls = talk.asked.flatMap (Query.toolCalls w)

/-- What a scanner makes of a measurement. -/
def Scanner.viewed (s : Scanner) (w : Surroundings) (overview : Overview) : Scanner.Viewed :=
  let (scanner, fs) := s.remember w overview.store?
  { scanner, fs, overview, answers := [overview.answer] }

theorem measureClean_of_fresh (h : Source.fresh.found? s w path = some size) :
    measureClean (s.overviewSetup w) path = ⟨[.load path], [], none, .ok size⟩ := by
  have hfresh : ((s.overviewSetup w).known.fresh path).filter (fun size => decide (0 < size))
      = some size := h
  rw [measureClean, hfresh]
  rfl

theorem measureClean_of_not_fresh (h : Source.fresh.found? s w path = none) :
    measureClean (s.overviewSetup w) path = (measureAnew (s.overviewSetup w) path).after (.load path) := by
  have hfresh : ((s.overviewSetup w).known.fresh path).filter (fun size => decide (0 < size)) = none := h
  rw [measureClean, hfresh]

/-- What is measured anew, by the sources that are asked. -/
theorem measureAnew_eq (s : Scanner) (w : Surroundings) (path : Path) :
    measureAnew (s.overviewSetup w) path
      = let calls := (Source.tool.query s.config path).toolCalls w
        let asked := [Source.tool, .walk, .kept].map (Source.query s.config path)
        match Source.tool.found? s w path, Source.walk.found? s w path, Source.kept.found? s w path with
        | some size, _, _ => .remember (asked.take 1) calls path size
        | none, some size, _ => .remember (asked.take 2) calls path size
        | none, none, some size => .remember asked calls path size
        | none, none, none => ⟨asked, calls, none, .error (.measureFailed path)⟩ := by
  have htool : positiveSize? ((s.overviewSetup w).tool.measureWithout path
      (excludedPart (s.overviewSetup w).config path)).answer = Source.tool.found? s w path := rfl
  have hlater : laterSize? (s.overviewSetup w) path
      = match Source.walk.found? s w path with
        | some size => ([Source.walk.query s.config path], some size)
        | none => ([Source.walk.query s.config path, Source.kept.query s.config path],
            Source.kept.found? s w path) := by
    unfold laterSize? Source.found?
    dsimp only [Scanner.overviewSetup]
    split <;> rfl
  unfold measureAnew
  dsimp only
  rw [htool, hlater]
  cases Source.tool.found? s w path with
  | some size => rfl
  | none =>
    cases Source.walk.found? s w path with
    | some size => rfl
    | none =>
      cases Source.kept.found? s w path with
      | some size => rfl
      | none => rfl

/-- **The dialogue with the sources** is what a scanner measures for a clean path that exists. -/
theorem matches_inTurn (s : Scanner) (w : Surroundings) (path : Path) :
    ((inTurn s.config path Source.all).run s w).Matches w
      (s.viewed w (measureClean (s.overviewSetup w) path)) := by
  unfold Source.all
  cases hfresh : Source.fresh.found? s w path with
  | some size =>
    rw [measureClean_of_fresh hfresh, run_inTurn_cons_of_some hfresh]
    exact ⟨rfl, rfl, rfl, rfl, rfl⟩
  | none =>
    rw [measureClean_of_not_fresh hfresh, run_inTurn_cons_of_none hfresh, measureAnew_eq]
    cases htool : Source.tool.found? s w path with
    | some size =>
      rw [run_inTurn_cons_of_some htool]
      exact ⟨rfl, rfl, rfl, rfl, (List.append_nil _).symm⟩
    | none =>
      rw [run_inTurn_cons_of_none htool]
      cases hwalk : Source.walk.found? s w path with
      | some size =>
        rw [run_inTurn_cons_of_some hwalk]
        exact ⟨rfl, rfl, rfl, rfl, (List.append_nil _).symm⟩
      | none =>
        rw [run_inTurn_cons_of_none hwalk]
        cases hkept : Source.kept.found? s w path with
        | some size =>
          rw [run_inTurn_cons_of_some hkept]
          exact ⟨rfl, rfl, rfl, rfl, (List.append_nil _).symm⟩
        | none =>
          rw [run_inTurn_cons_of_none hkept]
          exact ⟨rfl, rfl, rfl, rfl, (List.append_nil _).symm⟩

section Viewing

variable {p : Path}

theorem run_viewing_of_isEmpty (hempty : p.text.isEmpty = true) :
    (viewing s.config p).run s w = ⟨[], s, w.fs, .error (.invalidPath p .empty)⟩ := by
  rw [viewing, if_pos hempty]
  rfl

theorem run_viewing_of_not_isAbsolute (hempty : p.text.isEmpty = false)
    (hrelative : p.clean.isAbsolute = false) :
    (viewing s.config p).run s w = ⟨[], s, w.fs, .error (.invalidPath p.clean .notAbsolute)⟩ := by
  rw [viewing, hempty, if_neg Bool.false_ne_true]
  dsimp only
  rw [hrelative, Bool.not_false, if_pos rfl]
  rfl

/-- A measurement of an absolute path asks first whether the path leads anywhere. -/
theorem run_viewing_of_isAbsolute (hempty : p.text.isEmpty = false)
    (habsolute : p.clean.isAbsolute = true) :
    (viewing s.config p).run s w
      = Talk.after (.reach p.clean)
          (match w.fs.stat w.cwd p.clean with
          | .error e => ⟨[], s, w.fs, .error (.ofSystem p.clean e)⟩
          | .ok _ => (inTurn s.config p.clean Source.all).run s w) := by
  have hreply : (Query.reach p.clean).reply s w = (w.fs.stat w.cwd p.clean).map fun _ => () := rfl
  rw [viewing, hempty, if_neg Bool.false_ne_true]
  dsimp only
  rw [habsolute, Bool.not_true, if_neg Bool.false_ne_true, Dialogue.run, hreply]
  cases w.fs.stat w.cwd p.clean <;> rfl

theorem Talk.Matches.after_reach {talk : Talk (Except ScanError Nat)} {seen : Scanner.Viewed}
    (h : talk.Matches w seen) (path : Path) :
    (Talk.after (.reach path) talk).Matches w
      { seen with overview := seen.overview.after (.reach path) } :=
  ⟨h.answers, h.scanner, h.fs, congrArg (List.cons _) h.asked, h.calls⟩

/-- **The dialogue of a measurement** is the measurement. -/
theorem matches_viewing (s : Scanner) (w : Surroundings) (p : Path) :
    ((viewing s.config p).run s w).Matches w (s.overview w p) := by
  have hseen : s.overview w p = s.viewed w (measureOverview (s.overviewSetup w) p) := rfl
  rw [hseen, measureOverview]
  cases hempty : p.text.isEmpty with
  | true =>
    rw [run_viewing_of_isEmpty hempty, if_pos rfl]
    exact ⟨rfl, rfl, rfl, rfl, rfl⟩
  | false =>
    rw [if_neg Bool.false_ne_true]
    dsimp only
    cases habsolute : p.clean.isAbsolute with
    | false =>
      rw [run_viewing_of_not_isAbsolute hempty habsolute, Bool.not_false, if_pos rfl]
      exact ⟨rfl, rfl, rfl, rfl, rfl⟩
    | true =>
      have hstat : (s.overviewSetup w).stat = w.fs.stat w.cwd := rfl
      rw [run_viewing_of_isAbsolute hempty habsolute, Bool.not_true, if_neg Bool.false_ne_true, hstat]
      cases w.fs.stat w.cwd p.clean with
      | error e => exact ⟨rfl, rfl, rfl, rfl, rfl⟩
      | ok node => exact (matches_inTurn s w p.clean).after_reach p.clean

end Viewing

/-! ### The first source that has a size -/

theorem homePath?_eq_some_iff {c : ScanConfig} {home : Path} :
    c.homePath? = some home ↔ c.homeDir = some (.text home) := by
  unfold ScanConfig.homePath?
  rcases c.homeDir with - | path | bytes <;> simp [RawPath.text?]

/-- The part that is left out is the cached subtree, exactly for the home directory. -/
theorem excludedPart_eq_some_iff (c : ScanConfig) (path part : Path) :
    excludedPart c path = some part ↔ ∃ home, c.homeDir = some (.text home) ∧ home.sameAs path = true ∧
      part = home.join ⟨c.cachedSubtreeName⟩ := by
  simp only [← homePath?_eq_some_iff]
  unfold excludedPart ScanConfig.isHome ScanConfig.cachedSubtreePath?
  cases c.homePath? with
  | none => simp
  | some home =>
    rw [Option.any_some, Option.map_some]
    constructor
    · intro h
      split at h
      · next hhome =>
        cases h
        exact ⟨home, rfl, hhome, rfl⟩
      · cases h
    · rintro ⟨other, hother, hhome, rfl⟩
      cases hother
      exact if_pos hhome

/-- **A size from the first source that has one.**  A measurement refuses the empty path, a path that is
not absolute when it is cleaned, and one that leads nowhere, before it asks the cache or the tool.  For any
other it asks in turn for a fresh size in the cache, a size of the tool, a size of a walk, each of which
has to be positive, and any size that the cache ever kept; the cached subtree is left out exactly if the
path is the home directory.  The first source that has a size is the last one that is asked.  A size that is
not fresh in the cache is stored once, under the cleaned path, and is the answer also if it cannot be
stored; nothing else changes the scanner or the file system.  The measurement asks all this itself: it gives
what the dialogue leads to, and its questions are those of the dialogue. -/
theorem overview_takes_the_first_source (s : Scanner) (w : Surroundings) (p : Path) :
    let path := p.clean
    let talk := (viewing s.config p).run s w
    talk.Matches w (s.overview w p) ∧
    (p.text.isEmpty = true → talk = ⟨[], s, w.fs, .error (.invalidPath p .empty)⟩) ∧
    (p.text.isEmpty = false → path.isAbsolute = false →
      talk = ⟨[], s, w.fs, .error (.invalidPath path .notAbsolute)⟩) ∧
    (p.text.isEmpty = false → path.isAbsolute = true →
      (∀ e, w.fs.stat w.cwd path = .error e →
        talk = ⟨[.reach path], s, w.fs, .error (.ofSystem path e)⟩) ∧
      ∀ node, w.fs.stat w.cwd path = .ok node →
        (∀ before source rest size, Source.all = before ++ source :: rest →
          (∀ b ∈ before, b.found? s w path = none) → source.found? s w path = some size →
            let stored := s.cache.store w.fs w.cwd w.now path size
            talk.answer = .ok size ∧
            talk.asked = .reach path :: (before ++ [source]).map (Source.query s.config path)
              ++ (if source = .fresh then [] else [.store path size]) ∧
            (source = .fresh → talk.scanner = s ∧ talk.fs = w.fs) ∧
            (source ≠ .fresh → talk.scanner = { s with cache := stored.1 } ∧ talk.fs = stored.2.1)) ∧
        ((∀ source ∈ Source.all, source.found? s w path = none) →
          talk = ⟨.reach path :: Source.all.map (Source.query s.config path), s, w.fs,
            .error (.measureFailed path)⟩)) ∧
    ∀ part, excludedPart s.config path = some part ↔ ∃ home, s.config.homeDir = some (.text home) ∧
      home.sameAs path = true ∧ part = home.join ⟨s.config.cachedSubtreeName⟩ := by
  intro path talk
  refine ⟨matches_viewing s w p, run_viewing_of_isEmpty, run_viewing_of_not_isAbsolute,
    fun hempty habsolute => ⟨fun e hstat => ?_, fun node hstat => ?_⟩, excludedPart_eq_some_iff _ _⟩
  · have hnowhere : w.fs.stat w.cwd p.clean = .error e := hstat
    have htalk : talk = _ := run_viewing_of_isAbsolute hempty habsolute
    rw [hnowhere] at htalk
    exact htalk
  · have hthere : w.fs.stat w.cwd p.clean = .ok node := hstat
    have htalk : talk = _ := run_viewing_of_isAbsolute hempty habsolute
    rw [hthere] at htalk
    refine ⟨fun before source rest size hall hnone hfound => ?_, fun hnone => ?_⟩
    · intro stored
      obtain ⟨hanswer, hscanner, hfs, hasked⟩ := run_inTurn_of_found hnone hfound rest
      rw [← hall] at hanswer hscanner hfs hasked
      rw [htalk]
      refine ⟨hanswer, ?_, fun hfresh => ?_, fun hmeasured => ?_⟩
      · refine congrArg (List.cons _) (hasked.trans (congrArg _ ?_))
        unfold settled
        split <;> rfl
      · rw [settled, if_pos hfresh] at hscanner hfs
        exact ⟨hscanner, hfs⟩
      · rw [settled, if_neg hmeasured] at hscanner hfs
        exact ⟨hscanner, hfs⟩
    · rw [htalk, run_inTurn_of_not_found hnone]
      rfl

/-- A home directory with nothing but its cached subtree. -/
def emptyHome : Node :=
  .dir .free none [("Library", .dir .free none [("data", .file ⟨0, .fill 10, none⟩)])]

/-- A file system with it, and no usage tool. -/
def refusingSurroundings : Surroundings :=
  { homeSurroundings with fs := ⟨.dir .free none [("h", emptyHome)], 1⟩ }

/-- A scanner whose cache once kept a size of that directory, and refuses to store any. -/
def refusingScanner : Scanner :=
  .new (.default ⟨some (.text ⟨"/h"⟩), 1⟩) (.filled [] [(⟨"/h"⟩, 300)] true)

theorem kept_size_is_answered_though_not_stored :
    let path : Path := ⟨"/h"⟩
    let part : Option Path := some ⟨"/h/Library"⟩
    let talk := (viewing refusingScanner.config ⟨"/h/./x/.."⟩).run refusingScanner refusingSurroundings
    talk.answer = .ok 300 ∧
    talk.asked = [.reach path, .load path, .measure path part, .walk path part, .loadKept path,
      .store path 300] ∧
    (refusingScanner.cache.store refusingSurroundings.fs [] refusingSurroundings.now path 300).2.2
      = .error (.other "cannot store") ∧
    (refusingScanner.overview refusingSurroundings ⟨"/h/./x/.."⟩).answers = [talk.answer] := by
  intro path part talk
  have hclean : Path.clean ⟨"/h/./x/.."⟩ = ⟨"/h"⟩ := by decide +kernel
  have hpart : excludedPart refusingScanner.config ⟨"/h"⟩ = some ⟨"/h/Library"⟩ := by decide +kernel
  obtain ⟨hmatches, -, -, hasked, -⟩ :=
    overview_takes_the_first_source refusingScanner refusingSurroundings ⟨"/h/./x/.."⟩
  rw [hclean] at hasked
  have hlstat : refusingSurroundings.fs.lstat [] ⟨"/h"⟩ = .ok emptyHome := by rfl
  have hstat := FileSystem.stat_of_lstat hlstat rfl
  obtain ⟨hfound, -⟩ := (hasked (by decide +kernel) (by decide +kernel)).2 emptyHome hstat
  have hnone : ∀ b ∈ [Source.fresh, .tool, .walk],
      b.found? refusingScanner refusingSurroundings path = none := by decide +kernel
  have hkept : Source.kept.found? refusingScanner refusingSurroundings path = some 300 := by
    decide +kernel
  obtain ⟨hanswer, hquestions, -⟩ := hfound _ _ [] _ rfl hnone hkept
  have hrefused : (refusingScanner.cache.store refusingSurroundings.fs [] refusingSurroundings.now path
      300).2.2 = .error (.other "cannot store") := rfl
  have hanswers := hmatches.answers
  refine ⟨hanswer, ?_, hrefused, hanswers⟩
  rw [hquestions]
  simp only [List.map_cons, List.map_nil, List.cons_append, List.nil_append, Source.query, hpart]
  rfl

end DiskUsage
