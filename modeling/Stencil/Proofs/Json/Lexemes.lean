import Stencil.Json.Printer
import Stencil.Json.Reader
import Stencil.Proofs.Text.Cut
import Stencil.Proofs.Text.Lower
import Stencil.Proofs.Text.Numeral

/-!
# Strings and numerals of JSON

What is printed for a string is read as the string, up to the closing quote
(`Json.readString_quoted`), and a numeral is read as its integer, up to a code point that cannot
belong to it (`Json.readNumber_intNumeral`).

A string needs no care about halves of surrogate pairs: they are printed as they are, and only
escapes for them are ever joined.
-/

set_option autoImplicit false

namespace Stencil

namespace Json

/-! ## Strings -/

theorem hexDigit?_hexDigit {n : Nat} (h : n < 16) : (hexDigit n).hexDigit? = some n := by
  have hall : ∀ n < 16, (hexDigit n).hexDigit? = some n := by
    decide
  exact hall n h

theorem hexUnit?_hexDigits {n : Nat} (h : n < 0x10000) :
    hexUnit? (hexDigit (n / 16 / 16 / 16 % 16)) (hexDigit (n / 16 / 16 % 16))
      (hexDigit (n / 16 % 16)) (hexDigit (n % 16)) = some n := by
  have hdigit : ∀ m, (hexDigit (m % 16)).hexDigit? = some (m % 16) :=
    fun m => hexDigit?_hexDigit (Nat.mod_lt m (by decide))
  simp only [hexUnit?, hdigit, Option.bind_eq_bind, Option.bind_some, Option.some_inj]
  omega

theorem ofUnit_value (c : CodePoint) : ofUnit c.value = c := by
  rw [ofUnit, CodePoint.ofValue?_value, Option.getD_some]

theorem readString_short {letter escaped : CodePoint} (h : shortEscape? letter = some escaped)
    (hletter : letter ≠ 'u') (start : Nat) (behind : Text) :
    readString start none (.scalar '\\' :: letter :: behind) =
      prependTo [escaped] (readString start none behind) := by
  rw [readString.eq_def]
  dsimp only
  rw [if_neg (by decide), if_pos rfl, if_neg hletter, h]
  rfl

/-- The escape of a control with four digits is read as the control. -/
theorem readString_control {c : CodePoint} (hcontrol : c.value < 0x20) (start : Nat)
    {behind : Text} (hbehind : behind ≠ []) :
    readString start none (("\\u" : Text) ++ hexDigits 4 c.value ++ behind) =
      prependTo [c] (readString start none behind) := by
  have hunit := @hexUnit?_hexDigits c.value (by omega)
  have hhalf : ¬ (0xD800 ≤ c.value ∧ c.value < 0xDC00) := by omega
  have hempty : ¬ behind.isEmpty = true := by simpa using hbehind
  change readString start none (.scalar '\\' :: .scalar 'u' ::
    hexDigit (c.value / 16 / 16 / 16 % 16) :: hexDigit (c.value / 16 / 16 % 16) ::
    hexDigit (c.value / 16 % 16) :: hexDigit (c.value % 16) :: behind) = _
  rw [readString.eq_def]
  dsimp only
  rw [if_neg (by decide), if_pos rfl, if_pos rfl, if_neg hempty, hunit]
  dsimp only
  rw [if_neg hhalf, ofUnit_value]

/-- An escaped code point is read as the code point. -/
theorem readString_escape (c : CodePoint) (start : Nat) {behind : Text} (hbehind : behind ≠ []) :
    readString start none (escape c ++ behind) = prependTo [c] (readString start none behind) := by
  unfold escape
  split
  · next hquote => exact hquote ▸ readString_short rfl (by decide) start behind
  split
  · next hslash => exact hslash ▸ readString_short rfl (by decide) start behind
  split
  · next hfeed => exact hfeed ▸ readString_short rfl (by decide) start behind
  split
  · next hreturn => exact hreturn ▸ readString_short rfl (by decide) start behind
  split
  · next htab => exact htab ▸ readString_short rfl (by decide) start behind
  split
  · next hback => exact hback ▸ readString_short rfl (by decide) start behind
  split
  · next hform => exact hform ▸ readString_short rfl (by decide) start behind
  split
  · next hcontrol => exact readString_control hcontrol start hbehind
  · next hquote hslash _ _ _ _ _ hcontrol =>
    rw [List.singleton_append, readString.eq_def]
    dsimp only
    rw [if_neg hquote, if_neg hslash, if_neg hcontrol]
    rfl

/-- A string is read up to its closing quote. -/
theorem readString_quoted (text : Text) (start : Nat) (rest : Text) :
    readString start none (text.flatMap escape ++ .scalar '"' :: rest) = .ok (text, rest) := by
  induction text with
  | nil =>
    rw [List.flatMap_nil, List.nil_append, readString.eq_def]
    dsimp only
    rw [if_pos rfl]
    rfl
  | cons c text ih =>
    have hbehind : text.flatMap escape ++ .scalar '"' :: rest ≠ [] := by simp
    rw [List.flatMap_cons, List.append_assoc, readString_escape c start hbehind, ih]
    rfl

/-! ## Numerals -/

/-- Whether a numeral ends before the text: its first code point is none that a number goes on
with. -/
def EndsNumber (text : Text) : Prop :=
  ∀ c ∈ text.head?, c.isAsciiDigit = false ∧ c ≠ '.' ∧ c ≠ 'e' ∧ c ≠ 'E'

theorem readFraction_of_endsNumber {rest : Text} (h : EndsNumber rest) :
    readFraction rest = ([], rest) := by
  cases rest with
  | nil => rfl
  | cons c rest =>
    have hpoint : c ≠ '.' := (h c rfl).2.1
    simp [readFraction, hpoint]

theorem readExponent_of_endsNumber {rest : Text} (h : EndsNumber rest) :
    readExponent rest = (none, rest) := by
  cases rest with
  | nil => rfl
  | cons c rest =>
    have hletters : c ≠ 'e' ∧ c ≠ 'E' := (h c rfl).2.2
    simp [readExponent, hletters]

/-- The whole part of a number is digits at the start of the text. -/
theorem readWhole_spec (text : Text) :
    text = (readWhole text).1 ++ (readWhole text).2 ∧
      ∀ c ∈ (readWhole text).1, c.isAsciiDigit = true := by
  cases text with
  | nil => simp [readWhole]
  | cons c rest =>
    rw [readWhole]
    split
    · next hzero =>
      refine ⟨rfl, ?_⟩
      intro digit hdigit
      rw [List.mem_singleton.1 hdigit, hzero]
      decide
    · exact ⟨List.takeWhile_append_dropWhile.symm, fun c hc => List.mem_takeWhile_imp hc⟩

/-- All digits of a numeral are read as its whole part. -/
theorem readWhole_natNumeral (n : Nat) {rest : Text} (h : EndsNumber rest) :
    readWhole (natNumeral n ++ rest) = (natNumeral n, rest) := by
  have hdigits : ∀ c ∈ natNumeral n, c.isAsciiDigit = true :=
    fun c hc => isAsciiDigit_of_mem_natNumeral hc
  have hstop : ∀ c ∈ rest.head?, c.isAsciiDigit = false := fun c hc => (h c hc).1
  have htake := Text.takeWhile_append_of_stop hdigits hstop
  have hdrop := Text.dropWhile_append_of_stop hdigits hstop
  by_cases hzero : n = 0
  · subst hzero
    rfl
  obtain ⟨first, digits, hnumeral, -⟩ := exists_natNumeral_eq_cons n
  -- The numeral starts with no zero, so it is not cut behind its first digit.
  have hfirst : first ≠ '0' := head?_natNumeral hzero first (by rw [hnumeral]; rfl)
  rw [hnumeral, List.cons_append] at htake hdrop ⊢
  rw [readWhole, if_neg hfirst, htake, hdrop]

section Integer

variable {body rest : Text} {n : Nat} (hwhole : readWhole body = (natNumeral n, rest))
  (hsize : (natNumeral n).length ≤ maxIntegerDigits) (h : EndsNumber rest)

include hwhole hsize h

theorem readNumber_unsigned (hsign : ∀ c ∈ body.head?, c ≠ '-') :
    readNumber body = .ok (.int n, rest) := by
  have hsmall : ¬ maxIntegerDigits < (natNumeral n).length := Nat.not_lt.2 hsize
  cases body with
  | nil => exact absurd (congrArg Prod.fst hwhole).symm (natNumeral_ne_nil n)
  | cons c tail =>
    have hc : c ≠ '-' := hsign c rfl
    simp [readNumber, hc, hwhole, natNumeral_ne_nil, readFraction_of_endsNumber h,
      readExponent_of_endsNumber h, hsmall, digitsValue_natNumeral]

theorem readNumber_minus : readNumber (.scalar '-' :: body) = .ok (.int (-n), rest) := by
  have hsmall : ¬ maxIntegerDigits < (natNumeral n).length := Nat.not_lt.2 hsize
  simp [readNumber, hwhole, natNumeral_ne_nil, readFraction_of_endsNumber h,
    readExponent_of_endsNumber h, hsmall, digitsValue_natNumeral]

end Integer

/-- A numeral is read as its integer. -/
theorem readNumber_intNumeral {value : Int} {rest : Text}
    (hsize : (natNumeral value.natAbs).length ≤ maxIntegerDigits) (h : EndsNumber rest) :
    readNumber (intNumeral value ++ rest) = .ok (.int value, rest) := by
  cases value with
  | ofNat n =>
    obtain ⟨first, digits, hnumeral, hdigit⟩ := exists_natNumeral_eq_cons n
    refine readNumber_unsigned (readWhole_natNumeral n h) hsize h ?_
    rw [intNumeral, hnumeral]
    rintro c ⟨⟩ rfl
    exact absurd hdigit (by decide)
  | negSucc n => exact readNumber_minus (readWhole_natNumeral (n + 1) h) hsize h

end Json

end Stencil
