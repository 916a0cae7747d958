import DiskUsage.Path.Raw

/-!
# Paths to read

A path at or below the home directory is shown from `~` on.  Both are paths as the system has them,
and bytes that are no text are shown by a replacement.

* `displayPath`: the text of a path.
* `displayPath_of_none`: without a home directory a path is shown as it is.
* `seenFrom`, `ShownInFull`: what is shown before bytes are replaced, and that none is.
-/

namespace DiskUsage.Report

/-- The text of a path, seen from the home directory. -/
def displayPath (home : Option RawPath) (p : RawPath) : String :=
  match home.bind fun home => p.letters.stripBase? home.letters with
  | some rest => if rest.text.isEmpty then "~" else "~/" ++ RawPath.displayLetters rest.text
  | none => p.display

@[simp] theorem displayPath_of_none (p : RawPath) : displayPath none p = p.display := rfl

/-- A path seen from the home directory, as it is written. -/
def seenFrom (home p : Path) : String :=
  match p.stripBase? home with
  | some rest => if rest.text.isEmpty then "~" else "~/" ++ rest.text
  | none => p.text

/-- What is shown of a path is the text that its bytes are, with no replacement. -/
def ShownInFull (home p : RawPath) : Prop :=
  ∃ text, seenFrom home.letters p.letters = RawPath.lettersOf (Text.Utf8.encode text)

example : displayPath (some (.text ⟨"/home/u"⟩)) (.text ⟨"/home/u/a/b"⟩) = "~/a/b" := by
  decide +kernel
example : displayPath (some (.text ⟨"/home/u"⟩)) (.text ⟨"/home/user2"⟩) = "/home/user2" := by
  decide +kernel

end DiskUsage.Report
