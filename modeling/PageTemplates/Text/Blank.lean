import PageTemplates.Text.Basic
import PageTemplates.Text.Ranges

/-!
Blank characters: those with the Unicode property White_Space.
-/

namespace PageTemplates.Text

/-- The blank characters, as ranges. -/
def blanks : Ranges :=
  [(9, 13), (32, 32), (133, 133), (160, 160), (5760, 5760), (8192, 8202), (8232, 8233), (8239, 8239),
   (8287, 8287), (12288, 12288)]

/-- Whether a character separates words. -/
def isBlank (c : Char) : Bool :=
  blanks.contains c

def trimStart (t : Text) : Text :=
  t.dropWhile isBlank

def trimEnd (t : Text) : Text :=
  dropEndWhile isBlank t

def trim (t : Text) : Text :=
  trimEnd (trimStart t)

/-- Every blank of the ASCII class is a blank here. -/
theorem isBlank_of_isWhitespace {c : Char} (h : c.isWhitespace = true) : isBlank c = true := by
  simp only [Char.isWhitespace, Bool.or_eq_true, decide_eq_true_eq] at h
  rcases h with ((rfl | rfl) | rfl) | rfl <;> decide

end PageTemplates.Text
