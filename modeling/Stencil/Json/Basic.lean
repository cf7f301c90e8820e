import Stencil.Number.Shortest

/-!
# JSON documents

Documents as they are read and written. Numbers with a fraction or an exponent are kept apart from
integers, objects keep the order of their members, and each name of an object stands once.

* `Json`, with `Json.setMember` for a member that may be there already, and `Json.depth`;
* `floatWords`, the words for the numbers that have no numeral.
-/

set_option autoImplicit false

namespace Stencil

/-- A JSON document. -/
inductive Json where
  | null
  | bool (value : Bool)
  | int (value : Int)
  | float (value : Binary64)
  | string (value : Text)
  | array (items : List Json)
  | object (members : List (Text × Json))
  deriving Repr, Inhabited

namespace Json

/-- Gives `name` a value: a known name keeps its place, a new one comes last. -/
def setMember (name : Text) (value : Json) : List (Text × Json) → List (Text × Json)
  | [] => [(name, value)]
  | (other, old) :: rest =>
    if other = name then (other, value) :: rest else (other, old) :: setMember name value rest

mutual

/-- How many arrays and objects of a document are inside each other. -/
def depth : Json → Nat
  | .array items => depthOf items + 1
  | .object members => depthOfMembers members + 1
  | _ => 0

/-- How many arrays and objects of some documents are inside each other. -/
def depthOf : List Json → Nat
  | [] => 0
  | item :: items => max item.depth (depthOf items)

/-- How many arrays and objects of the values of some members are inside each other. -/
def depthOfMembers : List (Text × Json) → Nat
  | [] => 0
  | (_, value) :: members => max value.depth (depthOfMembers members)

end

/-- How JSON documents write numbers without digits. -/
def floatWords : SpecialWords :=
  ⟨"Infinity", "NaN"⟩

end Json

end Stencil
