import DiskUsage.Path.Basic
import DiskUsage.Order.Lexicographic

/-!
# The order of paths

Paths are ordered component by component: the root comes first, then the leading `.`, then `..`,
then the names in the order of their code points; a path comes before the paths below it.

* `Path.atMost_total`, `Path.atMost_trans`: the order is total and transitive.
* `Path.sameAs_of_atMost`: two paths that come before each other are the same.
-/

namespace DiskUsage

namespace Path

/-- Components in order, as numbers. -/
def Component.orderKey : Component → List Nat
  | root => [0]
  | current => [1]
  | parent => [2]
  | normal name => 3 :: Text.codePoints name

/-- The component comes before the other one, or is the same. -/
def Component.atMost (c d : Component) : Bool :=
  lexAtMost Text.natAtMost c.orderKey d.orderKey

/-- The path comes before the other one, or says the same. -/
def atMost (p q : Path) : Bool :=
  lexAtMost Component.atMost p.components q.components

theorem Component.orderKey_injective {c d : Component} (h : c.orderKey = d.orderKey) : c = d := by
  cases c <;> cases d <;> simp_all [orderKey]
  next h => exact Text.codePoints_injective h

theorem Component.atMost_total (c d : Component) : c.atMost d = true ∨ d.atMost c = true :=
  lexAtMost_total Text.natAtMost_total _ _

theorem Component.atMost_trans (c d e : Component) (h : c.atMost d = true)
    (k : d.atMost e = true) : c.atMost e = true :=
  lexAtMost_trans Text.natAtMost_trans h k

theorem Component.atMost_antisymm (c d : Component) (h : c.atMost d = true)
    (k : d.atMost c = true) : c = d :=
  orderKey_injective (eq_of_lexAtMost Text.natAtMost_antisymm h k)

theorem atMost_total (p q : Path) : p.atMost q = true ∨ q.atMost p = true :=
  lexAtMost_total Component.atMost_total _ _

theorem atMost_trans {p q r : Path} (h : p.atMost q = true) (k : q.atMost r = true) :
    p.atMost r = true :=
  lexAtMost_trans Component.atMost_trans h k

/-- **Antisymmetry**: two paths that come before each other are the same. -/
theorem sameAs_of_atMost {p q : Path} (h : p.atMost q = true) (k : q.atMost p = true) :
    p.sameAs q = true := by
  simpa using eq_of_lexAtMost Component.atMost_antisymm h k

example : Path.atMost ⟨"/a/b"⟩ ⟨"/a-b"⟩ = true := by decide +kernel

end Path

end DiskUsage
