import Stencil.Number.Numeral

/-!
# Decimal numerals

Numerals are made of ASCII digits, with a minus sign in front of those below zero, and end in a
digit. The digits of a numeral make its number (`digitsValue_natNumeral`), so different numbers have
different numerals (`natNumeral_injective`, `intNumeral_injective`).
-/

set_option autoImplicit false

namespace Stencil

theorem isAsciiDigit_of_mem_natNumeral {n : Nat} {c : CodePoint} (hc : c ∈ natNumeral n) :
    c.isAsciiDigit = true := by
  obtain ⟨digit, hdigit, rfl⟩ := List.mem_map.1 hc
  exact Nat.isDigit_of_mem_toDigits (Nat.succ_pos 9) (Nat.le_refl 10) hdigit

theorem natNumeral_ne_nil (n : Nat) : natNumeral n ≠ [] := by
  rw [natNumeral, Ne, List.map_eq_nil_iff]
  exact Nat.toDigits_ne_nil

/-- A numeral starts with a digit. -/
theorem exists_natNumeral_eq_cons (n : Nat) :
    ∃ c digits, natNumeral n = c :: digits ∧ c.isAsciiDigit = true := by
  cases hnumeral : natNumeral n with
  | nil => exact absurd hnumeral (natNumeral_ne_nil n)
  | cons c digits =>
    exact ⟨c, digits, rfl, isAsciiDigit_of_mem_natNumeral (hnumeral ▸ List.mem_cons_self)⟩

theorem digitsValue_natNumeral (n : Nat) : digitsValue (natNumeral n) = n := by
  rw [digitsValue, natNumeral, List.foldl_map]
  refine Eq.trans ?_ (@Nat.ofDigitChars_ten_toDigits n)
  rw [Nat.ofDigitChars]
  congr
  funext sofar c
  rw [Nat.mul_comm]
  rfl

theorem natNumeral_injective {m n : Nat} (h : natNumeral m = natNumeral n) : m = n := by
  rw [← digitsValue_natNumeral m, h, digitsValue_natNumeral]

/-- Only the numeral of zero starts with a zero. -/
theorem head?_natNumeral {n : Nat} (hn : n ≠ 0) : ∀ c ∈ (natNumeral n).head?, c ≠ '0' := by
  induction n using Nat.strongRecOn with
  | ind n ih =>
    rw [natNumeral, Nat.toDigits_eq_if (by decide)]
    split
    · next hsmall =>
      have hdigit : ∀ m < 10, m ≠ 0 → Nat.digitChar m ≠ '0' := by decide
      intro c hc
      cases hc
      exact fun hzero => hdigit n hsmall hn (CodePoint.scalar.inj hzero)
    · next hlarge =>
      -- The first digit is that of the tenth.
      have hfirst := ih (n / 10) (by omega) (by omega)
      obtain ⟨first, digits, hdigits, -⟩ := exists_natNumeral_eq_cons (n / 10)
      rw [hdigits] at hfirst
      rw [List.map_append, ← natNumeral, hdigits]
      exact hfirst

theorem mem_intNumeral {n : Int} {c : CodePoint} (hc : c ∈ intNumeral n) :
    c = '-' ∨ c.isAsciiDigit = true := by
  cases n with
  | ofNat m => exact Or.inr (isAsciiDigit_of_mem_natNumeral hc)
  | negSucc m => exact (List.mem_cons.1 hc).imp_right isAsciiDigit_of_mem_natNumeral

/-- A numeral ends in a digit. -/
theorem isAsciiDigit_getLast?_intNumeral (n : Int) :
    ∃ c ∈ (intNumeral n).getLast?, c.isAsciiDigit = true := by
  have hnat : ∀ m, ∃ c ∈ (natNumeral m).getLast?, c.isAsciiDigit = true := by
    intro m
    have hlast := List.getLast?_eq_some_getLast (natNumeral_ne_nil m)
    exact ⟨_, hlast, isAsciiDigit_of_mem_natNumeral (List.getLast_mem _)⟩
  cases n with
  | ofNat m => exact hnat m
  | negSucc m =>
    obtain ⟨c, hc, hdigit⟩ := hnat (m + 1)
    refine ⟨c, ?_, hdigit⟩
    rw [intNumeral, List.getLast?_cons, hc]
    rfl

theorem intNumeral_injective {m n : Int} (h : intNumeral m = intNumeral n) : m = n := by
  -- A minus sign is no digit, so it tells the numerals below zero from the others.
  have hsign : ∀ {k l : Nat}, .scalar '-' :: natNumeral k ≠ natNumeral l := by
    intro k l hsame
    have hdigit := @isAsciiDigit_of_mem_natNumeral l (.scalar '-')
      (hsame ▸ List.mem_cons_self)
    exact absurd hdigit (by decide)
  cases m with
  | ofNat k =>
    cases n with
    | ofNat l => exact congrArg Int.ofNat (natNumeral_injective h)
    | negSucc l => exact absurd h.symm hsign
  | negSucc k =>
    cases n with
    | ofNat l => exact absurd h hsign
    | negSucc l =>
      have hsucc := natNumeral_injective (List.cons.inj h).2
      exact congrArg Int.negSucc (Nat.succ.inj hsucc)

end Stencil
