/-!
# Lines

A line ends at a line feed, and the last line needs none after it. Every other character belongs to
the line in which it stands. Main statement: a line with a line feed at its end is read back as it
is, whatever follows (`linesOf_append_newline`).
-/

namespace Descent.Text

/-- A text as its lines, without the line feeds. -/
def linesOf : List Char → List (List Char)
  | [] => []
  | c :: rest =>
    if c = '\n' then [] :: linesOf rest
    else
      match linesOf rest with
      | [] => [[c]]
      | line :: more => (c :: line) :: more

/-- A line that holds no line feed, with one after it, is the first line. -/
theorem linesOf_append_newline {line : List Char} (h : '\n' ∉ line) (rest : List Char) :
    linesOf (line ++ '\n' :: rest) = line :: linesOf rest := by
  induction line with
  | nil => simp [linesOf]
  | cons c line ih =>
    have hc : c ≠ '\n' := by rintro rfl; exact h List.mem_cons_self
    have hline : '\n' ∉ line := fun hmem => h (List.mem_cons_of_mem c hmem)
    simp [linesOf, hc, ih hline]

/-- The lines of a text, without their line feeds. -/
def lines (s : String) : List String := (linesOf s.toList).map String.ofList

end Descent.Text
