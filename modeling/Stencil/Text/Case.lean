import Stencil.Text.CaseTable

/-!
# Upper and lower case

The full case mappings of text. Lower case is context free but for the sigma, which takes its final
form (`Text.sigmaIsFinal`) at the end of a word; upper case is context free throughout.

This module holds `CodePoint.lowerAlone`, `Text.lower`, `CodePoint.upper` and `Text.upper`.
-/

set_option autoImplicit false

namespace Stencil

open CaseTable

/-- The image of a code point under the first run that has it. -/
def CodePoint.mapCase (runs : List CaseRun) (c : CodePoint) : CodePoint :=
  match runs.findSome? fun run => run.apply? c.value with
  | some image => (CodePoint.ofValue? image).getD c
  | none => c

/-- The lower-case form of a code point that is not a capital sigma. The dotted capital I keeps its
dot as a mark of its own. -/
def CodePoint.lowerAlone (c : CodePoint) : Text :=
  if c.value = 0x130 then ['i', '\u0307'] else [c.mapCase lowerRuns]

/-- The upper-case form of a code point. -/
def CodePoint.upper (c : CodePoint) : Text :=
  match upperExpansions.find? fun (n, _) => n = c.value with
  | some (_, expansion) => Text.ofString expansion
  | none => [c.mapCase upperRuns]

namespace Text

/-- Whether the nearest code point that a sigma does not look past is a letter with cases. -/
def meetsCased (beside : Text) : Bool :=
  match beside.dropWhile (·.isIn caseIgnorable) with
  | [] => false
  | c :: _ => c.isIn casedLetters

/-- A sigma is final when a letter stands before it and none after it. The text before it is given
from its end. -/
def sigmaIsFinal (behind ahead : Text) : Bool :=
  meetsCased behind && !meetsCased ahead

/-- Lower case of the rest of a text, with the part already passed given from its end. -/
def lowerAfter : Text → Text → Text
  | _, [] => []
  | behind, c :: rest =>
    let image : Text :=
      if c = 'Σ' then (if sigmaIsFinal behind rest then ['ς'] else ['σ']) else c.lowerAlone
    image ++ lowerAfter (c :: behind) rest

/-- The text in lower case. -/
def lower (text : Text) : Text :=
  lowerAfter [] text

/-- The text in upper case. -/
def upper (text : Text) : Text :=
  text.flatMap CodePoint.upper

end Text

end Stencil
