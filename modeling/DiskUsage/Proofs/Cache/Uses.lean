import DiskUsage.Cache.Store
import DiskUsage.Proofs.Cache.Encoding

/-!
# What is done with a cache

Sizes are stored in a cache and asked for, and a cache that is kept in a file may be closed and opened
again at any time.  What a cache has to answer can be told from what was done before: the size that was
stored last for a path is known for ever, and is fresh until its time-to-live has passed.

* `Use`, `Reply`, `Cache.replies`: what is done with a cache, and what it answers.
* `lastStored?`, `due`: what it has to answer.
* `Remembers`: the map holds what was stored last; kept by every use and by opening again.
* `replies_memory`: a cache in memory answers what is due.
-/

namespace DiskUsage

open FileSystem Number

/-- What is done with a cache. -/
inductive Use where
  | store (path : Path) (size : UInt64)
  | load (path : Path)
  | loadPersisted (path : Path)
  /-- The cache is closed and opened again. -/
  | reopen
  deriving DecidableEq, Repr

/-- A size is stored. -/
def Use.isStore : Use → Bool
  | store _ _ => true
  | _ => false

/-- What a cache answers. -/
inductive Reply where
  | stored
  | refused (e : ScanError)
  | size (found : Option Nat)
  | reopened
  deriving DecidableEq, Repr

/-- Something could not be stored. -/
def Reply.isRefused : Reply → Bool
  | refused _ => true
  | _ => false

namespace Cache

/-- The cache closed and opened again; one in memory is never closed. -/
def reopened (c : Cache) (fs : FileSystem) (cwd : List String) : Cache :=
  match c with
  | file backing ttl _ => openFile fs cwd backing ttl
  | c => c

/-- The cache, the file system and the answer after one use. -/
def reply (c : Cache) (fs : FileSystem) (cwd : List String) (now : Timestamp) :
    Use → Cache × FileSystem × Reply
  | .store path size =>
    match c.store fs cwd now path size.toNat with
    | (c, fs, .ok ()) => (c, fs, .stored)
    | (c, fs, .error e) => (c, fs, .refused e)
  | .load path => (c, fs, .size (c.load now.unixSeconds path))
  | .loadPersisted path => (c, fs, .size (c.loadPersisted path))
  | .reopen => (c.reopened fs cwd, fs, .reopened)

/-- What a cache answers to one use after the other, each at its time. -/
def replies (c : Cache) (fs : FileSystem) (cwd : List String) : List (Timestamp × Use) → List Reply
  | [] => []
  | (now, use) :: rest =>
    match c.reply fs cwd now use with
    | (c, fs, answer) => answer :: replies c fs cwd rest

end Cache

/-! ### What is due -/

/-- The size that was stored last for a path, and when. -/
def lastStored? (path : Path) (past : List (Timestamp × Use)) : Option (Timestamp × UInt64) :=
  past.reverse.findSome? fun
    | (since, .store p size) => if p.sameAs path then some (since, size) else none
    | _ => none

/-- What a cache that forgets nothing answers, told from what was done before.  The age of a size is
counted in whole seconds of the clock. -/
def due (ttl : Option Nat) (past : List (Timestamp × Use)) : Timestamp × Use → Reply
  | (_, .store _ _) => .stored
  | (now, .load path) =>
    let fresh := (lastStored? path past).filter fun last =>
      ttl.all fun seconds => decide (now.unixSeconds - last.1.unixSeconds ≤ seconds)
    .size (fresh.map fun last => last.2.toNat)
  | (_, .loadPersisted path) => .size ((lastStored? path past).map fun last => last.2.toNat)
  | (_, .reopen) => .reopened

/-- What is due to one use after the other. -/
def dues (ttl : Option Nat) (past : List (Timestamp × Use)) : List (Timestamp × Use) → List Reply
  | [] => []
  | u :: rest => due ttl past u :: dues ttl (past ++ [u]) rest

theorem dues_getElem? (ttl : Option Nat) (past before : List (Timestamp × Use)) (u : Timestamp × Use)
    (rest : List (Timestamp × Use)) :
    (dues ttl past (before ++ u :: rest))[before.length]? = some (due ttl (past ++ before) u) := by
  induction before generalizing past with
  | nil => rw [List.append_nil]; rfl
  | cons first before ih =>
    rw [List.cons_append, dues, List.length_cons, List.getElem?_cons_succ, ih]
    simp

theorem lastStored?_store (path : Path) (past : List (Timestamp × Use)) (now : Timestamp) (p : Path)
    (size : UInt64) :
    lastStored? path (past ++ [(now, .store p size)])
      = if p.sameAs path then some (now, size) else lastStored? path past := by
  rw [lastStored?, List.reverse_append, List.reverse_singleton, List.singleton_append,
    List.findSome?_cons]
  dsimp only
  cases p.sameAs path <;> rfl

theorem lastStored?_of_not_store (path : Path) (past : List (Timestamp × Use)) (now : Timestamp)
    {use : Use} (h : use.isStore = false) :
    lastStored? path (past ++ [(now, use)]) = lastStored? path past := by
  rw [lastStored?, List.reverse_append, List.reverse_singleton, List.singleton_append,
    List.findSome?_cons]
  cases use with
  | store p size => cases h
  | load p => rfl
  | loadPersisted p => rfl
  | reopen => rfl

/-! ### What a map remembers -/

/-- A size that was stored, with its time, as a cache remembers it. -/
def measuredOf (last : Timestamp × UInt64) : Measured :=
  ⟨last.2.toNat, last.1.unixSeconds⟩

/-- The map holds for every path what was stored last, once, in words. -/
structure Remembers (past : List (Timestamp × Use)) (map : SizeMap) : Prop where
  distinct : map.Distinct
  words : ∀ e ∈ map, SizeMap.Words e
  found : ∀ path, map.find? path = (lastStored? path past).map measuredOf

variable {past uses : List (Timestamp × Use)} {map : SizeMap} {now : Timestamp} {path : Path}
  {size : UInt64} {ttl : Option Nat} {fs : FileSystem} {cwd : List String}

theorem Remembers.nil : Remembers [] [] :=
  ⟨List.Pairwise.nil, nofun, fun _ => rfl⟩

theorem words_measuredOf (hnow : now.secs ≤ Timestamp.maxSecs) (path : Path) (size : UInt64) :
    SizeMap.Words (path, measuredOf (now, size)) := by
  have hsize : size.toNat < 2 ^ 64 := size.toNat_lt
  constructor
  · show size.toNat < wordCount
    unfold wordCount
    omega
  · show now.secs.toNat < wordCount
    unfold Timestamp.maxSecs at hnow
    unfold wordCount
    omega

theorem Remembers.store (h : Remembers past map) (hnow : now.secs ≤ Timestamp.maxSecs) :
    Remembers (past ++ [(now, .store path size)]) (map.insert path (measuredOf (now, size))) := by
  refine ⟨h.distinct.insert path _, SizeMap.words_insert h.words (words_measuredOf hnow path size),
    fun other => ?_⟩
  rw [lastStored?_store]
  cases hsame : path.sameAs other with
  | true => exact SizeMap.find?_insert_self hsame _ map
  | false => exact (SizeMap.find?_insert_of_not_sameAs hsame _ map).trans (h.found other)

theorem Remembers.pass (h : Remembers past map) (now : Timestamp) {use : Use}
    (huse : use.isStore = false) : Remembers (past ++ [(now, use)]) map :=
  ⟨h.distinct, h.words, fun other => by
    rw [lastStored?_of_not_store other past now huse, h.found other]⟩

/-- The order of the map makes no difference. -/
theorem Remembers.sorted (h : Remembers past map) : Remembers past map.sorted := by
  have hperm : map.sorted.Perm map := SizeMap.sorted_perm map
  refine ⟨h.distinct.perm hperm.symm, fun e he => h.words e (hperm.mem_iff.1 he), fun other => ?_⟩
  rw [← h.distinct.find?_perm hperm.symm, h.found other]

/-- **What was stored last** is known for ever. -/
theorem Remembers.size? (h : Remembers past map) (ttl : Option Nat) (now : Timestamp) (path : Path) :
    .size (map.size? path) = due ttl past (now, .loadPersisted path) := by
  rw [SizeMap.size?, h.found path, due, Option.map_map]
  rfl

/-- It is fresh until its time-to-live has passed. -/
theorem Remembers.fresh? (h : Remembers past map) (ttl : Option Nat) (now : Timestamp) (path : Path) :
    .size (map.fresh? ttl now.unixSeconds path) = due ttl past (now, .load path) := by
  rw [SizeMap.fresh?, h.found path, due, Option.filter_map, Option.map_map]
  rfl

/-! ### A cache in memory -/

/-- One use of a cache in memory: it answers what is due, and remembers what was done. -/
theorem reply_memory (ttl : Option Nat) (fs : FileSystem) (cwd : List String)
    (h : Remembers past map) (hnow : now.secs ≤ Timestamp.maxSecs) (use : Use) :
    ∃ later, Remembers (past ++ [(now, use)]) later ∧
      (Cache.memory ttl map).reply fs cwd now use
        = (.memory ttl later, fs, due ttl past (now, use)) := by
  cases use with
  | store path size => exact ⟨_, h.store hnow, rfl⟩
  | load path =>
    refine ⟨map, h.pass now rfl, ?_⟩
    rw [← h.fresh? ttl now path]
    rfl
  | loadPersisted path =>
    refine ⟨map, h.pass now rfl, ?_⟩
    rw [← h.size? ttl now path]
    rfl
  | reopen => exact ⟨map, h.pass now rfl, rfl⟩

theorem replies_memory (h : Remembers past map) (htimes : ∀ u ∈ uses, u.1.secs ≤ Timestamp.maxSecs) :
    (Cache.memory ttl map).replies fs cwd uses = dues ttl past uses := by
  induction uses generalizing past map with
  | nil => rfl
  | cons u uses ih =>
    obtain ⟨now, use⟩ := u
    obtain ⟨later, hlater, hreply⟩ :=
      reply_memory ttl fs cwd h (htimes (now, use) List.mem_cons_self) use
    rw [Cache.replies, hreply, dues]
    dsimp only
    rw [ih hlater fun u hu => htimes u (List.mem_cons_of_mem _ hu)]

end DiskUsage
