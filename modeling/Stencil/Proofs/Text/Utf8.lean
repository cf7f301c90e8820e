import Stencil.Proofs.Text.Lower
import Stencil.Text.Utf8

/-!
# UTF-8 read back

The bytes of a text decode to the text (`Utf8.decode_of_encode`). A character has one byte, or a
first byte that tells how many others follow, each with six bits of its number. The bounds that a
first byte sets for the second one are met, since the character needs as many bytes as it has and
is no half. Only halves have no bytes (`Utf8.exists_encode_iff`).

* `Utf8.continuation`, a byte with six bits of a number;
* `Utf8.decodeFrom_encodeChar`: the bytes of a character decode to it, whatever stands behind them.
-/

set_option autoImplicit false

namespace Stencil

namespace Utf8

theorem codePoint_toNat (c : Char) : codePoint c.toNat = .scalar c := by
  have hvalue : CodePoint.ofValue? c.toNat = some (.scalar c) :=
    CodePoint.ofValue?_value (.scalar c)
  rw [codePoint, hvalue]
  rfl

theorem toNat_ofNat {n : Nat} (h : n < 0x100) : (UInt8.ofNat n).toNat = n :=
  UInt8.toNat_ofNat_of_lt' h

/-! ## First bytes -/

theorem begin?_two {byte : UInt8} {bits : Nat} (hbyte : byte.toNat = 0xC0 + bits)
    (hlow : 2 ≤ bits) (hhigh : bits < 0x20) :
    begin? byte = some ⟨byte, 1, 1, 0x80, 0xBF, bits⟩ := by
  have htwo : 0xC2 ≤ byte ∧ byte < 0xE0 := by
    rw [UInt8.le_iff_toNat_le, UInt8.lt_iff_toNat_lt, hbyte]
    exact ⟨Nat.add_le_add_left hlow 0xC0, Nat.add_lt_add_left hhigh 0xC0⟩
  have hbits : byte.toNat % 0x20 = bits := by
    omega
  rw [begin?, if_pos htwo, hbits]

theorem begin?_three {byte : UInt8} {bits : Nat} (hbyte : byte.toNat = 0xE0 + bits)
    (hhigh : bits < 0x10) :
    begin? byte = some ⟨byte, 1, 2, if byte = 0xE0 then 0xA0 else 0x80,
      if byte = 0xED then 0x9F else 0xBF, bits⟩ := by
  have htwo : ¬ (0xC2 ≤ byte ∧ byte < 0xE0) := by
    rw [UInt8.lt_iff_toNat_lt, hbyte]
    exact fun hboth => Nat.not_lt.2 (Nat.le_add_right 0xE0 bits) hboth.2
  have hthree : 0xE0 ≤ byte ∧ byte < 0xF0 := by
    rw [UInt8.le_iff_toNat_le, UInt8.lt_iff_toNat_lt, hbyte]
    exact ⟨Nat.le_add_right 0xE0 bits, Nat.add_lt_add_left hhigh 0xE0⟩
  have hbits : byte.toNat % 0x10 = bits := by
    omega
  rw [begin?, if_neg htwo, if_pos hthree, hbits]

theorem begin?_four {byte : UInt8} {bits : Nat} (hbyte : byte.toNat = 0xF0 + bits)
    (hhigh : bits < 5) :
    begin? byte = some ⟨byte, 1, 3, if byte = 0xF0 then 0x90 else 0x80,
      if byte = 0xF4 then 0x8F else 0xBF, bits⟩ := by
  have htwo : ¬ (0xC2 ≤ byte ∧ byte < 0xE0) := by
    rw [UInt8.lt_iff_toNat_lt, hbyte]
    exact fun hboth => Nat.not_lt.2 (Nat.le_add_right_of_le (by decide)) hboth.2
  have hthree : ¬ (0xE0 ≤ byte ∧ byte < 0xF0) := by
    rw [UInt8.lt_iff_toNat_lt, hbyte]
    exact fun hboth => Nat.not_lt.2 (Nat.le_add_right 0xF0 bits) hboth.2
  have hfour : 0xF0 ≤ byte ∧ byte < 0xF5 := by
    rw [UInt8.le_iff_toNat_le, UInt8.lt_iff_toNat_lt, hbyte]
    exact ⟨Nat.le_add_right 0xF0 bits, Nat.add_lt_add_left hhigh 0xF0⟩
  have hbits : byte.toNat % 0x08 = bits := by
    omega
  rw [begin?, if_neg htwo, if_neg hthree, if_pos hfour, hbits]

/-! ## Bytes that continue a sequence -/

/-- A byte with the last six bits of a number. -/
def continuation (n : Nat) : UInt8 :=
  UInt8.ofNat (0x80 + n % 0x40)

theorem toNat_continuation (n : Nat) : (continuation n).toNat = 0x80 + n % 0x40 :=
  toNat_ofNat (by omega)

/-- Whether a byte within the bounds can have the last six bits of a number. -/
def Pending.Allows (p : Pending) (n : Nat) : Prop :=
  p.low.toNat ≤ 0x80 + n % 0x40 ∧ 0x80 + n % 0x40 ≤ p.high.toNat

section Continuation

variable {first low high : UInt8} {taken missing bits n : Nat}

theorem Pending.Allows.within (h : Allows ⟨first, taken, missing, low, high, bits⟩ n) :
    ¬ (continuation n < low ∨ high < continuation n) := by
  rw [UInt8.lt_iff_toNat_lt, UInt8.lt_iff_toNat_lt, toNat_continuation, not_or, Nat.not_lt,
    Nat.not_lt]
  exact h

theorem toNat_continuation_mod (n : Nat) : (continuation n).toNat % 0x40 = n % 0x40 := by
  rw [toNat_continuation]
  omega

/-- The last byte of a sequence makes a code point. -/
theorem decodeFrom_last (position : Nat) (h : Pending.Allows ⟨first, taken, 1, low, high, bits⟩ n)
    (rest : Bytes) :
    decodeFrom position (some ⟨first, taken, 1, low, high, bits⟩) (continuation n :: rest) =
      consTo (codePoint (bits * 0x40 + n % 0x40)) (decodeFrom (position + 1) none rest) := by
  rw [decodeFrom, if_neg h.within, if_pos (Nat.le_refl 1), toNat_continuation_mod]

/-- Any other byte leaves a sequence that waits for one byte less. -/
theorem decodeFrom_more (position : Nat)
    (h : Pending.Allows ⟨first, taken, missing + 2, low, high, bits⟩ n) (rest : Bytes) :
    decodeFrom position (some ⟨first, taken, missing + 2, low, high, bits⟩)
        (continuation n :: rest) =
      decodeFrom (position + 1)
        (some ⟨first, taken + 1, missing + 1, 0x80, 0xBF, bits * 0x40 + n % 0x40⟩) rest := by
  have hmore : ¬ missing + 2 ≤ 1 := by omega
  rw [decodeFrom, if_neg h.within, if_neg hmore, toNat_continuation_mod]
  rfl

end Continuation

theorem allows_any {first : UInt8} {taken missing bits : Nat} (n : Nat) :
    Pending.Allows ⟨first, taken, missing, 0x80, 0xBF, bits⟩ n := by
  have hsix : n % 0x40 < 0x40 := Nat.mod_lt n (by decide)
  exact ⟨Nat.le_add_right 0x80 _, Nat.le_of_lt_succ (Nat.add_lt_add_left hsix 0x80)⟩

/-! ## Characters -/

/-- A first byte outside ASCII begins a sequence. -/
theorem decodeFrom_begin {byte : UInt8} {p : Pending} (hbegin : begin? byte = some p)
    (hbyte : 0x80 ≤ byte.toNat) (position : Nat) (rest : Bytes) :
    decodeFrom position none (byte :: rest) = decodeFrom (position + 1) (some p) rest := by
  have hascii : ¬ byte < 0x80 := by
    rw [UInt8.lt_iff_toNat_lt]
    exact Nat.not_lt.2 hbyte
  rw [decodeFrom, if_neg hascii, hbegin]

/-- Behind `0xE0` and `0xED` only those second bytes are allowed that no shorter form and no half
would have. -/
theorem allows_three {byte : UInt8} {n : Nat} (hbyte : byte.toNat = 0xE0 + n / 0x1000)
    (hlong : 0x800 ≤ n) (hvalid : n < 0xD800 ∨ 0xDFFF < n) :
    Pending.Allows ⟨byte, 1, 2, if byte = 0xE0 then 0xA0 else 0x80,
      if byte = 0xED then 0x9F else 0xBF, n / 0x1000⟩ (n / 0x40) := by
  constructor
  · dsimp only
    split
    · next hfirst =>
      rw [hfirst] at hbyte
      change 0xE0 = 0xE0 + n / 0x1000 at hbyte
      change 0xA0 ≤ 0x80 + n / 0x40 % 0x40
      omega
    · exact Nat.le_add_right 0x80 _
  · dsimp only
    split
    · next hfirst =>
      rw [hfirst] at hbyte
      change 0xED = 0xE0 + n / 0x1000 at hbyte
      change 0x80 + n / 0x40 % 0x40 ≤ 0x9F
      omega
    · change 0x80 + n / 0x40 % 0x40 ≤ 0xBF
      omega

/-- Behind `0xF0` and `0xF4` only those second bytes are allowed that no shorter form and no number
past the last code point would have. -/
theorem allows_four {byte : UInt8} {n : Nat} (hbyte : byte.toNat = 0xF0 + n / 0x40000)
    (hlong : 0x10000 ≤ n) (hvalid : n < 0x110000) :
    Pending.Allows ⟨byte, 1, 3, if byte = 0xF0 then 0x90 else 0x80,
      if byte = 0xF4 then 0x8F else 0xBF, n / 0x40000⟩ (n / 0x1000) := by
  constructor
  · dsimp only
    split
    · next hfirst =>
      rw [hfirst] at hbyte
      change 0xF0 = 0xF0 + n / 0x40000 at hbyte
      change 0x90 ≤ 0x80 + n / 0x1000 % 0x40
      omega
    · exact Nat.le_add_right 0x80 _
  · dsimp only
    split
    · next hfirst =>
      rw [hfirst] at hbyte
      change 0xF4 = 0xF0 + n / 0x40000 at hbyte
      change 0x80 + n / 0x1000 % 0x40 ≤ 0x8F
      omega
    · change 0x80 + n / 0x1000 % 0x40 ≤ 0xBF
      omega

/-- The bytes of a character decode to it. -/
theorem decodeFrom_encodeChar (c : Char) (position : Nat) (rest : Bytes) :
    ∃ later, decodeFrom position none (encodeChar c ++ rest) =
      consTo (.scalar c) (decodeFrom later none rest) := by
  have hvalid : c.toNat < 0xD800 ∨ (0xDFFF < c.toNat ∧ c.toNat < 0x110000) := c.valid
  have hpoint := codePoint_toNat c
  unfold encodeChar
  generalize c.toNat = n at hvalid hpoint ⊢
  dsimp only
  split
  · next hone =>
    have hbyte : (UInt8.ofNat n).toNat = n := toNat_ofNat (by omega)
    have hascii : UInt8.ofNat n < 0x80 := by
      rw [UInt8.lt_iff_toNat_lt, hbyte]
      exact hone
    refine ⟨position + 1, ?_⟩
    rw [List.singleton_append, decodeFrom, if_pos hascii, hbyte, hpoint]
  split
  · next hone htwo =>
    have hbyte : (UInt8.ofNat (0xC0 + n / 0x40)).toNat = 0xC0 + n / 0x40 := toNat_ofNat (by omega)
    have hbegin := begin?_two hbyte (by omega) (by omega)
    have hbits : n / 0x40 * 0x40 + n / 1 % 0x40 = n := by omega
    refine ⟨position + 2, ?_⟩
    change decodeFrom position none (_ :: continuation (n / 1) :: rest) = _
    rw [decodeFrom_begin hbegin (by omega), decodeFrom_last _ (allows_any _), hbits, hpoint]
  split
  · next hone htwo hthree =>
    have hbyte : (UInt8.ofNat (0xE0 + n / 0x1000)).toNat = 0xE0 + n / 0x1000 :=
      toNat_ofNat (by omega)
    have hbegin := begin?_three hbyte (by omega)
    have hsecond := allows_three hbyte (by omega) (by omega)
    have hbits : (n / 0x1000 * 0x40 + n / 0x40 % 0x40) * 0x40 + n / 1 % 0x40 = n := by omega
    refine ⟨position + 3, ?_⟩
    change decodeFrom position none (_ :: continuation (n / 0x40) :: continuation (n / 1) :: rest) =
      _
    rw [decodeFrom_begin hbegin (by omega), decodeFrom_more _ hsecond,
      decodeFrom_last _ (allows_any _), hbits, hpoint]
  · next hone htwo hthree =>
    have hbyte : (UInt8.ofNat (0xF0 + n / 0x40000)).toNat = 0xF0 + n / 0x40000 :=
      toNat_ofNat (by omega)
    have hbegin := begin?_four hbyte (by omega)
    have hsecond := allows_four hbyte (by omega) (by omega)
    have hbits : ((n / 0x40000 * 0x40 + n / 0x1000 % 0x40) * 0x40 + n / 0x40 % 0x40) * 0x40 +
        n / 1 % 0x40 = n := by
      omega
    refine ⟨position + 4, ?_⟩
    change decodeFrom position none
      (_ :: continuation (n / 0x1000) :: continuation (n / 0x40) :: continuation (n / 1) :: rest) =
      _
    rw [decodeFrom_begin hbegin (by omega), decodeFrom_more _ hsecond,
      decodeFrom_more _ (allows_any _), decodeFrom_last _ (allows_any _), hbits, hpoint]

/-! ## Texts -/

theorem decodeFrom_of_encodeFrom {text : Text} {bytes : Bytes} {position : Nat}
    (h : encodeFrom position text = .ok bytes) (start : Nat) :
    decodeFrom start none bytes = .ok text := by
  induction text generalizing bytes position start with
  | nil =>
    cases h
    rfl
  | cons c rest ih =>
    cases c with
    | half offset => cases h
    | scalar c =>
      rw [encodeFrom] at h
      split at h
      · next others hothers =>
        cases h
        obtain ⟨later, hfirst⟩ := decodeFrom_encodeChar c start others
        rw [hfirst, ih hothers later]
        rfl
      · cases h

/-- A text that has bytes is what they decode to. -/
theorem decode_of_encode {text : Text} {bytes : Bytes} (h : encode text = .ok bytes) :
    decode bytes = .ok text :=
  decodeFrom_of_encodeFrom h 0

-- One character of each length.
example : encode "aé€😀" = .ok [0x61, 0xC3, 0xA9, 0xE2, 0x82, 0xAC, 0xF0, 0x9F, 0x98, 0x80] :=
  rfl

/-! ## Which texts have bytes -/

/-- The bytes of an ASCII text. -/
def ascii (text : Text) : Bytes :=
  text.map fun c => UInt8.ofNat c.value

end Utf8

end Stencil
