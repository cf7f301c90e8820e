import Mathlib.Data.Nat.Digits.Defs
import Stencil.Proofs.Json.RoundTrip

/-!
# Exact documents

A document can be read back if it is exact and short (`Json.plain_iff`): it has no fractions, its
objects have distinct names, and none of its integers has more digits than can be read.

* `Json.parts`, a document and all documents in it;
* `Json.Exact` and `Json.Short`, what is asked of these parts.
-/

set_option autoImplicit false

namespace Stencil

namespace Json

/-! ## The parts of a document -/

mutual

/-- A document and all documents in it. -/
def parts : Json → List Json
  | .null => [.null]
  | .bool value => [.bool value]
  | .int value => [.int value]
  | .float value => [.float value]
  | .string value => [.string value]
  | .array items => .array items :: partsOf items
  | .object members => .object members :: partsOfMembers members

/-- The parts of all items of an array. -/
def partsOf : List Json → List Json
  | [] => []
  | item :: items => item.parts ++ partsOf items

/-- The parts of all values of an object. -/
def partsOfMembers : List (Text × Json) → List Json
  | [] => []
  | (_, value) :: members => value.parts ++ partsOfMembers members

end

/-- Whether a document, for itself, is none of the numbers with a fraction or an exponent, and names
each of its members once. -/
def IsExact : Json → Prop
  | .float _ => False
  | .object members => (members.map Prod.fst).Nodup
  | _ => True

/-- Whether a document is built of objects with distinct names, arrays, strings, integers, truth
values and nulls. -/
def Exact (document : Json) : Prop :=
  ∀ part ∈ document.parts, part.IsExact

/-- Whether an integer has no more digits than can be read. -/
def IsShort (value : Int) : Prop :=
  (natNumeral value.natAbs).length ≤ maxIntegerDigits

/-- Whether no integer of a document is too long to be read. -/
def Short (document : Json) : Prop :=
  ∀ value, .int value ∈ document.parts → IsShort value

mutual

theorem plain_iff_parts : ∀ document : Json, document.Plain ↔
    (∀ part ∈ document.parts, part.IsExact) ∧ ∀ value, .int value ∈ document.parts → IsShort value
  | .null => by simp [Plain, parts, IsExact]
  | .bool value => by simp [Plain, parts, IsExact]
  | .int value => by simp [Plain, parts, IsExact, IsShort]
  | .float value => by simp [Plain, parts, IsExact]
  | .string value => by simp [Plain, parts, IsExact]
  | .array items => by
    rw [Plain, plainItems_iff_parts items, parts]
    simp [IsExact]
  | .object members => by
    rw [Plain, plainMembers_iff_parts members, parts]
    simp [IsExact, and_assoc]

theorem plainItems_iff_parts : ∀ items : List Json, PlainItems items ↔
    (∀ part ∈ partsOf items, part.IsExact) ∧ ∀ value, .int value ∈ partsOf items → IsShort value
  | [] => by simp [PlainItems, partsOf]
  | item :: items => by
    rw [PlainItems, plain_iff_parts item, plainItems_iff_parts items, partsOf]
    simp only [List.mem_append, or_imp, forall_and]
    exact and_and_and_comm

theorem plainMembers_iff_parts : ∀ members : List (Text × Json), PlainMembers members ↔
    (∀ part ∈ partsOfMembers members, part.IsExact) ∧
      ∀ value, .int value ∈ partsOfMembers members → IsShort value
  | [] => by simp [PlainMembers, partsOfMembers]
  | (_, value) :: members => by
    rw [PlainMembers, plain_iff_parts value, plainMembers_iff_parts members, partsOfMembers]
    simp only [List.mem_append, or_imp, forall_and]
    exact and_and_and_comm

end

/-- The documents that can be read back are those that are exact and have no long integers. -/
theorem plain_iff {document : Json} : document.Plain ↔ document.Exact ∧ document.Short :=
  plain_iff_parts document

/-! ## Long numerals -/

theorem value_of_isAsciiDigit {c : CodePoint} (h : c.isAsciiDigit = true) :
    c.value - 0x30 < 10 := by
  cases c with
  | scalar c =>
    simp only [CodePoint.isAsciiDigit, CodePoint.satisfies, Bool.and_eq_true, decide_eq_true_eq,
      Char.le_def, UInt32.le_iff_toNat_le] at h
    have hlast : ('9' : Char).val.toNat = 0x39 := rfl
    have hvalue : (CodePoint.scalar c).value = c.val.toNat := rfl
    omega
  | half offset => cases h

/-- Digits make a number with no more digits than they are. -/
theorem digitsValue_lt {digits : Text} (h : ∀ c ∈ digits, c.isAsciiDigit = true) :
    digitsValue digits < 10 ^ digits.length := by
  -- Read on from the number that the digits before have made.
  have hfrom : ∀ start : Nat, digits.foldl (fun n c => n * 10 + (c.value - 0x30)) start <
      (start + 1) * 10 ^ digits.length := by
    induction digits with
    | nil =>
      intro start
      rw [List.foldl_nil, List.length_nil]
      omega
    | cons c rest ih =>
      intro start
      have hc := value_of_isAsciiDigit (h c List.mem_cons_self)
      have hrest := ih (fun d hd => h d (List.mem_cons_of_mem c hd))
        (start * 10 + (c.value - 0x30))
      rw [List.foldl_cons, List.length_cons, Nat.pow_succ']
      calc rest.foldl (fun n c => n * 10 + (c.value - 0x30)) (start * 10 + (c.value - 0x30))
          < (start * 10 + (c.value - 0x30) + 1) * 10 ^ rest.length := hrest
        _ ≤ (start + 1) * 10 * 10 ^ rest.length := Nat.mul_le_mul_right _ (by omega)
        _ = (start + 1) * (10 * 10 ^ rest.length) := Nat.mul_assoc _ _ _
  have hstart := hfrom 0
  rw [Nat.zero_add, Nat.one_mul] at hstart
  exact hstart

/-- A numeral has so many digits just when its number is that small. -/
theorem length_natNumeral_le_iff {n count : Nat} (hcount : 0 < count) :
    (natNumeral n).length ≤ count ↔ n < 10 ^ count := by
  constructor
  · intro hlength
    have hvalue := digitsValue_lt fun c hc => @isAsciiDigit_of_mem_natNumeral n c hc
    rw [digitsValue_natNumeral] at hvalue
    exact Nat.lt_of_lt_of_le hvalue (Nat.pow_le_pow_right (by decide) hlength)
  · intro hsmall
    rw [natNumeral, List.length_map]
    exact Nat.toDigits_length 10 n count hcount hsmall

theorem isShort_iff {value : Int} : IsShort value ↔ value.natAbs < 10 ^ maxIntegerDigits :=
  length_natNumeral_le_iff (by decide)

/-- A power of ten has one digit more than its exponent. -/
theorem isShort_pow_iff (count : Nat) : IsShort (10 ^ count) ↔ count < maxIntegerDigits := by
  rw [isShort_iff, Int.natAbs_pow]
  -- Whatever the limit is; its power is not to be worked out.
  generalize maxIntegerDigits = limit
  exact Nat.pow_lt_pow_iff_right (by decide)

end Json

end Stencil
