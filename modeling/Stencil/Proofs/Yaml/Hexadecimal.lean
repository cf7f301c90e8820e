import Mathlib.Data.List.TakeWhile
import Mathlib.Data.Nat.Digits.Defs
import Stencil.Yaml.Scalar

/-!
# Hexadecimal numerals in YAML

Only decimal numerals are limited in length. A hexadecimal one is read however long it is, so the
integers of YAML documents have no bound (`Yaml.readInt_power`).
-/

set_option autoImplicit false

namespace Stencil

/-- Zeros and ones are plain digits. -/
theorem plainNumeral_of_zeros_ones {numeral : Text}
    (h : ∀ c ∈ numeral, c = .scalar '0' ∨ c = .scalar '1') : plainNumeral numeral = numeral := by
  have hmap : ∀ f : CodePoint → CodePoint, (∀ c ∈ numeral, f c = c) → numeral.map f = numeral := by
    intro f hf
    exact (List.map_congr_left hf).trans (List.map_id numeral)
  have hdrop : ∀ digits : Text, (∀ c ∈ digits, c ∈ numeral) →
      digits.dropWhile isNumeralBlank = digits := by
    intro digits hdigits
    cases digits with
    | nil => rfl
    | cons c rest =>
      rcases h c (hdigits c List.mem_cons_self) with rfl | rfl <;> rfl
  rw [plainNumeral, hmap]
  · rw [hdrop _ fun c hc => hc, hdrop _ fun c hc => List.mem_reverse.1 hc, List.reverse_reverse]
  · intro c hc
    rcases h c hc with rfl | rfl <;> rfl

namespace Yaml

variable (legacy : Bool) (count : Nat)

theorem foldl_zeros (start : Nat) :
    (zeros count).foldl (fun n c => n * 16 + (digitIn? 16 c).getD 0) start =
      start * 16 ^ count := by
  induction count generalizing start with
  | zero => exact (Nat.mul_one start).symm
  | succ count ih =>
    have hzero : (digitIn? 16 (.scalar '0')).getD 0 = 0 := by
      decide
    rw [zeros, List.replicate_succ, List.foldl_cons, ← zeros, ih, hzero, Nat.add_zero,
      Nat.mul_assoc, Nat.pow_succ']

/-- In base sixteen, a one with zeros behind it is a power of the base. -/
theorem readInteger_power : readInteger 16 (.scalar '1' :: zeros count) = .ok (16 ^ count) := by
  have hdigits : ∀ c ∈ CodePoint.scalar '1' :: zeros count, c = .scalar '0' ∨ c = .scalar '1' := by
    intro c hc
    exact (List.mem_cons.1 hc).symm.imp_left List.eq_of_mem_replicate
  have htake : (CodePoint.scalar '1' :: zeros count).takeWhile (fun c => (digitIn? 16 c).isSome) =
      .scalar '1' :: zeros count := by
    refine List.takeWhile_eq_self_iff.2 fun c hc => ?_
    rcases hdigits c hc with rfl | rfl <;> rfl
  have hone : 0 * 16 + (digitIn? 16 (.scalar '1')).getD 0 = 1 := by
    decide
  have hmark : withoutBaseMark 16 (.scalar '1' :: zeros count) = .scalar '1' :: zeros count := rfl
  have hsign : splitSign (.scalar '1' :: zeros count) = (false, .scalar '1' :: zeros count) := rfl
  rw [readInteger, plainNumeral_of_zeros_ones hdigits, hsign]
  dsimp only
  rw [hmark, htake, if_neg (by simp), if_neg (by simp), List.foldl_cons, hone, foldl_zeros,
    Nat.one_mul, if_neg (by decide), Int.natCast_pow]
  rfl

theorem unsignedInt_power :
    unsignedInt legacy (("0x1" : Text) ++ zeros count) = .ok (16 ^ count) := by
  have hdrop : (("0x1" : Text) ++ zeros count).drop 2 = .scalar '1' :: zeros count := rfl
  have hbinary : (("0x1" : Text) ++ zeros count).startsWith "0b" = false := rfl
  have hmark : (("0x1" : Text) ++ zeros count).startsWith "0x" = true := rfl
  rw [unsignedInt, hbinary, if_neg (by decide), hmark, if_pos rfl, hdrop, integerIn,
    readInteger_power]

/-- **Hexadecimal numerals may have any length.** -/
theorem readInt_power : readInt legacy (("0x1" : Text) ++ zeros count) = .ok (16 ^ count) := by
  have hmark : ∀ c ∈ ("0x1" : Text), decide (c ≠ .scalar '_') = true := by
    decide
  have hfilter : (("0x1" : Text) ++ zeros count).filter (fun c => c ≠ .scalar '_') =
      ("0x1" : Text) ++ zeros count := by
    rw [List.filter_eq_self]
    intro c hc
    rcases List.mem_append.1 hc with hc | hc
    · exact hmark c hc
    · rw [List.eq_of_mem_replicate hc]
      decide
  have hscores : withoutUnderscores (("0x1" : Text) ++ zeros count) =
      .ok (("0x1" : Text) ++ zeros count) := by
    rw [withoutUnderscores, hfilter]
    rfl
  have hsign : splitSign (("0x1" : Text) ++ zeros count) =
      (false, ("0x1" : Text) ++ zeros count) := rfl
  rw [readInt, hscores]
  change (unsignedInt legacy (("0x1" : Text) ++ zeros count) >>= fun value => _) = _
  rw [unsignedInt_power]
  rfl

end Yaml

end Stencil
