import DiskUsage.Path.Basic
import DiskUsage.Scan.Child

/-!
# Remembered sizes

Sizes are remembered by path, each with the second in which it was measured.  Paths that say the same
share one entry, which keeps the spelling that came first.  A size is fresh for as long as its
time-to-live, in whole seconds; without one it is fresh for ever.

* `SizeMap.find?`, `SizeMap.insert`: look up and remember.
* `find?_insert_self`, `find?_insert_of_not_sameAs`: what is found after something was remembered.
-/

namespace DiskUsage

/-- A size that was measured in a certain second from the Unix epoch. -/
structure Measured where
  size : Nat
  measuredAt : Nat
  deriving DecidableEq, Repr

/-- The measurement is not older than its time-to-live. -/
def Measured.isFresh (m : Measured) (ttl : Option Nat) (now : Nat) : Bool :=
  ttl.all fun seconds => decide (now - m.measuredAt ≤ seconds)

/-- Measurements by path, in the order in which the paths were first remembered. -/
abbrev SizeMap := List (Path × Measured)

namespace SizeMap

/-- The measurement of a path. -/
def find? (path : Path) : SizeMap → Option Measured
  | [] => none
  | (p, m) :: rest => if p.sameAs path then some m else find? path rest

/-- Remember a measurement. -/
def insert (path : Path) (m : Measured) : SizeMap → SizeMap
  | [] => [(path, m)]
  | (p, old) :: rest =>
    if p.sameAs path then (p, m) :: rest else (p, old) :: insert path m rest

/-- Remember measurements one after the other. -/
def insertAll (map : SizeMap) (entries : List (Path × Measured)) : SizeMap :=
  entries.foldl (fun map e => insert e.1 e.2 map) map

/-- The fresh size of a path. -/
def fresh? (map : SizeMap) (ttl : Option Nat) (now : Nat) (path : Path) : Option Nat :=
  ((find? path map).filter fun m => m.isFresh ttl now).map Measured.size

/-- The size of a path, however old. -/
def size? (map : SizeMap) (path : Path) : Option Nat :=
  (find? path map).map Measured.size

@[simp] theorem insertAll_nil (map : SizeMap) : map.insertAll [] = map := rfl

@[simp] theorem insertAll_append (map : SizeMap) (a b : List (Path × Measured)) :
    map.insertAll (a ++ b) = (map.insertAll a).insertAll b := by
  simp [insertAll]

theorem find?_insert_self {path other : Path} (h : path.sameAs other = true) (m : Measured)
    (map : SizeMap) : find? other (insert path m map) = some m := by
  induction map with
  | nil => simp [insert, find?, h]
  | cons e rest ih =>
    obtain ⟨p, old⟩ := e
    by_cases hp : p.sameAs path = true
    · simp [insert, find?, hp, Path.sameAs_trans hp h]
    · have hpo : p.sameAs other = false := by
        rw [Bool.eq_false_iff]
        intro ho
        exact hp (Path.sameAs_trans ho (by rw [Path.sameAs_comm]; exact h))
      simp only [Bool.not_eq_true] at hp
      simp [insert, find?, hp, hpo, ih]

theorem find?_insert_of_not_sameAs {path other : Path} (h : path.sameAs other = false)
    (m : Measured) (map : SizeMap) : find? other (insert path m map) = find? other map := by
  induction map with
  | nil => simp [insert, find?, h]
  | cons e rest ih =>
    obtain ⟨p, old⟩ := e
    by_cases hp : p.sameAs path = true
    · have hpo : p.sameAs other = false := by
        rw [Bool.eq_false_iff]
        intro ho
        rw [Path.sameAs_comm] at hp
        simp [Path.sameAs_trans hp ho] at h
      simp [insert, find?, hp, hpo]
    · simp only [Bool.not_eq_true] at hp
      have hi : insert path m ((p, old) :: rest) = (p, old) :: insert path m rest := by
        simp only [insert, hp]
        rfl
      rw [hi, find?, find?, ih]

end SizeMap

end DiskUsage
