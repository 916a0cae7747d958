/-!
# Columns

A text set in a column is filled up with spaces to its width, and one that is too wide is left
alone.  Widths count characters.

* `length_padLeft`, `length_padRight`: the width of the result.
-/

namespace DiskUsage.Text

/-- A text set against the right side of a column. -/
def padLeft (width : Nat) (s : String) : String :=
  String.ofList (List.replicate (width - s.toList.length) ' ') ++ s

/-- A text set against the left side of a column. -/
def padRight (width : Nat) (s : String) : String :=
  s ++ String.ofList (List.replicate (width - s.toList.length) ' ')

/-- A text of at most `max` characters; a longer one ends in an ellipsis that counts. -/
def truncate (max : Nat) (s : String) : String :=
  if s.toList.length ≤ max then s
  else String.ofList (s.toList.take (max - 1) ++ ['…'])

theorem length_padLeft (width : Nat) (s : String) :
    (padLeft width s).toList.length = Nat.max width s.toList.length := by
  simp only [padLeft, String.toList_append, String.toList_ofList, List.length_append,
    List.length_replicate, Nat.max_def]
  split <;> omega

theorem length_padRight (width : Nat) (s : String) :
    (padRight width s).toList.length = Nat.max width s.toList.length := by
  simp only [padRight, String.toList_append, String.toList_ofList, List.length_append,
    List.length_replicate, Nat.max_def]
  split <;> omega

/-- A text cut to a positive width keeps to it. -/
theorem length_truncate_le (max : Nat) (s : String) (h : 0 < max) :
    (truncate max s).toList.length ≤ max := by
  unfold truncate
  split
  · assumption
  · simp only [String.toList_ofList, List.length_append, List.length_take, List.length_singleton]
    omega

end DiskUsage.Text
