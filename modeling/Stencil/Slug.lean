import Stencil.Text.Case
import Stencil.Text.MarkTable
import Stencil.Text.SpellingTable

/-!
# Slugs

The directory name of a component. A text is spelled in plain letters, its marks are dropped, an
ampersand reads "and", and the runs of ASCII letters and digits that are left are joined by hyphens
in lower case.

* `alphanumericRuns`, the maximal runs of ASCII letters and digits;
* `slugOf`.
-/

set_option autoImplicit false

namespace Stencil

/-- A text in its plain spelling, without marks. -/
def withoutMarks (text : Text) : Text :=
  (text.flatMap CodePoint.spelling).filter fun c => !c.isMark

/-- Splitting at what is no ASCII letter or digit: the run that the text starts with, and the runs
after it. -/
def splitRuns : Text → Text × List Text
  | [] => ([], [])
  | c :: rest =>
    let (run, runs) := splitRuns rest
    if c.isAsciiAlphanumeric then (c :: run, runs)
    else ([], if run.isEmpty then runs else run :: runs)

/-- The maximal runs of ASCII letters and digits, in order. -/
def alphanumericRuns (text : Text) : List Text :=
  let (run, runs) := splitRuns text
  if run.isEmpty then runs else run :: runs

/-- An ASCII capital as a small letter; any other code point as it is. -/
def CodePoint.lowerAscii : CodePoint → CodePoint
  | .scalar c => .scalar c.toLower
  | c => c

/-- The slug of a text. -/
def slugOf (text : Text) : Text :=
  let spelled := Text.replace '&' " and " (withoutMarks text)
  Text.join "-" ((alphanumericRuns spelled).map fun run => run.map CodePoint.lowerAscii)

end Stencil
