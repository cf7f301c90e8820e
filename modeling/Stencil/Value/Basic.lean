import Stencil.Json.Basic
import Stencil.Text.Utf8

/-!
# Decoded values

What a request file decodes to. JSON documents give null, truth values, numbers, strings, lists and
mappings with strings for keys; YAML documents also give keys of other kinds, moments of time,
bytes, sets and tuples.

* `Moment`, a date or a date with a time of day, in a `Zone` or in none;
* `Value`, with `Value.ofJson`, `Value.member?`, `Value.depth` and `Value.isEmpty`.
-/

set_option autoImplicit false

namespace Stencil

/-- The zone of a time: its distance from universal time in minutes, and how it was written. -/
structure Zone where
  minutes : Int
  name : Text
  deriving DecidableEq, Repr

/-- A time of day, with its zone when it has one. -/
structure Clock where
  hour : Nat
  minute : Nat
  second : Nat
  microsecond : Nat
  zone : Option Zone
  deriving DecidableEq, Repr

/-- A date, with or without a time of day. -/
structure Moment where
  year : Nat
  month : Nat
  day : Nat
  clock : Option Clock
  deriving DecidableEq, Repr

/-- A decoded value. -/
inductive Value where
  | null
  | bool (value : Bool)
  | int (value : Int)
  | float (value : Binary64)
  | string (value : Text)
  | moment (value : Moment)
  | bytes (value : Bytes)
  | list (items : List Value)
  | tuple (items : List Value)
  | set (items : List Value)
  | mapping (entries : List (Value × Value))
  deriving Repr

namespace Value

mutual

/-- The value of a JSON document. -/
def ofJson : Json → Value
  | .null => .null
  | .bool value => .bool value
  | .int value => .int value
  | .float value => .float value
  | .string value => .string value
  | .array items => .list (ofItems items)
  | .object members => .mapping (ofMembers members)

/-- The values of the items of an array. -/
def ofItems : List Json → List Value
  | [] => []
  | item :: items => ofJson item :: ofItems items

/-- The entries of the members of an object. -/
def ofMembers : List (Text × Json) → List (Value × Value)
  | [] => []
  | (name, value) :: members => (.string name, ofJson value) :: ofMembers members

end

/-- The value under a string as key. -/
def member? (name : Text) : List (Value × Value) → Option Value
  | [] => none
  | (.string other, value) :: rest => if other = name then some value else member? name rest
  | _ :: rest => member? name rest

mutual

/-- How many lists and mappings of a value are inside each other; tuples and sets count as lists. -/
def depth : Value → Nat
  | .list items => depthOf items + 1
  | .tuple items => depthOf items + 1
  | .set items => depthOf items + 1
  | .mapping entries => depthOfEntries entries + 1
  | _ => 0

/-- How many lists and mappings of some values are inside each other. -/
def depthOf : List Value → Nat
  | [] => 0
  | item :: items => max item.depth (depthOf items)

/-- How many lists and mappings of the keys and values of a mapping are inside each other. -/
def depthOfEntries : List (Value × Value) → Nat
  | [] => 0
  | (key, value) :: entries => max (max key.depth value.depth) (depthOfEntries entries)

end

/-- Values that count as nothing: null, false, zero, and whatever holds nothing. -/
def isEmpty : Value → Bool
  | null => true
  | bool value => !value
  | int value => value = 0
  | float value => value.isZero
  | string value => value.isEmpty
  | moment _ => false
  | bytes value => value.isEmpty
  | list items => items.isEmpty
  | tuple items => items.isEmpty
  | set items => items.isEmpty
  | mapping entries => entries.isEmpty

end Value

end Stencil
