import DiskUsage.Number.Binary64

/-!
# Bars

A bar shows a ratio by filled and empty cells between brackets.

* `length_makeBar`: a bar has as many cells as its width, whatever the ratio.
-/

namespace DiskUsage.Report

open Number

/-- The quotient of two integers as the ratio of a bar; zero stands for a negative one, which fills
no cell either. -/
def barRatio (num den : Int) : Binary64 :=
  if decide (num < 0) = decide (den < 0) then (Binary64.ofNat num.natAbs).div (.ofNat den.natAbs)
  else .zero

/-- How many cells of a bar are filled. -/
def filledCells (ratio : Binary64) (width : Nat) : Nat :=
  min (ratio.mul (.ofNat width)).roundWord width

/-- The bar of a ratio. -/
def makeBar (ratio : Binary64) (width : Nat) : String :=
  let filled := filledCells ratio width
  String.ofList
    ('[' :: List.replicate filled '█' ++ List.replicate (width - filled) '░' ++ [']'])

theorem length_makeBar (ratio : Binary64) (width : Nat) :
    (makeBar ratio width).toList.length = width + 2 := by
  have h : filledCells ratio width ≤ width := Nat.min_le_right _ _
  simp only [makeBar, String.toList_ofList, List.length_append, List.length_cons,
    List.length_replicate, List.length_nil]
  omega

end DiskUsage.Report
