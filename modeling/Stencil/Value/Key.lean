import Stencil.Value.Basic

/-!
# Values as keys

A mapping has each key once, and numbers that are equal are the same key whatever their kind. Lists
serve as keys in the form of tuples; mappings and sets are no keys.

* `Value.isHashable` and `Value.asKey?`;
* `Value.sameKey`;
* `Value.setEntry`, an entry put into a mapping.
-/

set_option autoImplicit false

namespace Stencil

namespace Value

mutual

/-- Whether a value can be a key, or a part of one. -/
def isHashable : Value → Bool
  | .list _ => false
  | .set _ => false
  | .mapping _ => false
  | .tuple items => areHashable items
  | _ => true

/-- Whether all values can be keys. -/
def areHashable : List Value → Bool
  | [] => true
  | item :: items => isHashable item && areHashable items

end

/-- The key that a value makes. -/
def asKey? (value : Value) : Option Value :=
  let key :=
    match value with
    | .list items => .tuple items
    | other => other
  if key.isHashable then some key else none

/-- The integer that a number or a truth value is equal to. -/
def integer? : Value → Option Int
  | .bool value => some (if value then 1 else 0)
  | .int value => some value
  | .float value => value.toInt?
  | _ => none

mutual

/-- Whether two keys are the same. -/
def sameKey : Value → Value → Bool
  | .null, .null => true
  | .string a, .string b => a = b
  | .bytes a, .bytes b => a = b
  | .moment a, .moment b => a = b
  | .tuple as, .tuple bs => sameKeys as bs
  | .float a, .float b => a ≠ .nan && (a = b || (a.isZero && b.isZero))
  | a, b => a.integer?.isSome && a.integer? = b.integer?

/-- Whether two lists have the same keys in the same order. -/
def sameKeys : List Value → List Value → Bool
  | [], [] => true
  | a :: as, b :: bs => sameKey a b && sameKeys as bs
  | _, _ => false

end

/-- The entries with one more; a key that is there keeps its place and takes the new value. -/
def setEntry (key value : Value) : List (Value × Value) → List (Value × Value)
  | [] => [(key, value)]
  | (other, old) :: rest =>
    if sameKey key other then (other, value) :: rest else (other, old) :: setEntry key value rest

end Value

end Stencil
