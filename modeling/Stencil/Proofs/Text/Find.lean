import Stencil.Text.Basic

/-!
# First occurrences

`Text.find?` cuts a text at the first occurrence of a pattern (`Text.find?_eq_some_iff`) and fails
exactly where there is none (`Text.find?_eq_none_iff`). What is written behind the text moves no
first occurrence (`Text.CutAtFirst.append`), and it completes no pattern whose last code point it
lacks (`Text.infix_of_infix_append`).
-/

set_option autoImplicit false

namespace Stencil

namespace Text

/-- `text` is cut at the first occurrence of `pattern`: no occurrence starts further left. -/
def CutAtFirst (pattern text front back : Text) : Prop :=
  text = front ++ pattern ++ back ∧
    ∀ earlier later, text = earlier ++ pattern ++ later → front.length ≤ earlier.length

theorem CutAtFirst.unique {pattern text front back front' back' : Text}
    (h : CutAtFirst pattern text front back) (h' : CutAtFirst pattern text front' back') :
    front = front' ∧ back = back' := by
  have hle := h.2 front' back' h'.1
  have hge := h'.2 front back h.1
  have hlength : front.length = front'.length := Nat.le_antisymm hle hge
  have hsame := h.1.symm.trans h'.1
  rw [List.append_assoc, List.append_assoc] at hsame
  obtain ⟨hfront, hrest⟩ := List.append_inj hsame hlength
  exact ⟨hfront, List.append_cancel_left hrest⟩

theorem cutAtFirst_of_prefix {pattern rest : Text} :
    CutAtFirst pattern (pattern ++ rest) [] rest :=
  ⟨by rw [List.nil_append], fun _ _ _ => Nat.zero_le _⟩

/-- Past a place where the pattern does not occur, the first occurrence is that of the rest. -/
theorem cutAtFirst_cons_iff {pattern text front back : Text} {c : CodePoint}
    (hnot : ¬ pattern <+: c :: text) :
    CutAtFirst pattern (c :: text) (c :: front) back ↔ CutAtFirst pattern text front back := by
  constructor
  · rintro ⟨hsplit, hfirst⟩
    refine ⟨by simpa using hsplit, ?_⟩
    intro earlier later h
    have hle := hfirst (c :: earlier) later (by rw [h]; rfl)
    simpa using hle
  · rintro ⟨hsplit, hfirst⟩
    refine ⟨by rw [hsplit]; rfl, ?_⟩
    intro earlier later h
    cases earlier with
    | nil =>
      rw [List.nil_append] at h
      exact absurd ⟨later, h.symm⟩ hnot
    | cons d tail =>
      rw [List.cons_append, List.cons_append, List.cons.injEq] at h
      exact Nat.succ_le_succ (hfirst tail later h.2)

theorem find?_spec (pattern text : Text) :
    match find? pattern text with
    | some (front, back) => CutAtFirst pattern text front back
    | none => ¬ pattern <:+: text := by
  induction text with
  | nil =>
    cases pattern with
    | nil => exact cutAtFirst_of_prefix
    | cons c rest => simp [find?]
  | cons c rest ih =>
    rw [find?]
    by_cases hprefix : pattern <+: c :: rest
    · obtain ⟨later, hlater⟩ := hprefix
      rw [if_pos (List.isPrefixOf_iff_prefix.2 ⟨later, hlater⟩), ← hlater, List.drop_left]
      exact cutAtFirst_of_prefix
    · rw [if_neg (fun h => hprefix (List.isPrefixOf_iff_prefix.1 h))]
      cases hfind : find? pattern rest with
      | none =>
        rw [hfind] at ih
        intro hinfix
        rcases List.infix_cons_iff.1 hinfix with h | h
        · exact hprefix h
        · exact ih h
      | some pair =>
        rw [hfind] at ih
        exact (cutAtFirst_cons_iff hprefix).2 ih

theorem find?_eq_some_iff {pattern text front back : Text} :
    find? pattern text = some (front, back) ↔ CutAtFirst pattern text front back := by
  have hspec := find?_spec pattern text
  constructor
  · intro h
    rw [h] at hspec
    exact hspec
  · intro h
    cases hfind : find? pattern text with
    | none =>
      rw [hfind] at hspec
      exact absurd ⟨front, back, h.1.symm⟩ hspec
    | some pair =>
      rw [hfind] at hspec
      obtain ⟨hfront, hback⟩ := hspec.unique h
      exact congrArg some (Prod.ext hfront hback)

theorem find?_eq_none_iff {pattern text : Text} :
    find? pattern text = none ↔ ¬ pattern <:+: text := by
  have hspec := find?_spec pattern text
  constructor
  · intro h
    rw [h] at hspec
    exact hspec
  · intro h
    cases hfind : find? pattern text with
    | none => rfl
    | some pair =>
      rw [hfind] at hspec
      exact absurd ⟨pair.1, pair.2, hspec.1.symm⟩ h

/-! ## Longer texts -/

/-- A first occurrence is still the first one when more is written behind the text. -/
theorem CutAtFirst.append {pattern text front back : Text}
    (h : CutAtFirst pattern text front back) (more : Text) :
    CutAtFirst pattern (text ++ more) front (back ++ more) := by
  obtain ⟨hsplit, hfirst⟩ := h
  refine ⟨by rw [hsplit, List.append_assoc], ?_⟩
  intro earlier later hother
  rcases Nat.lt_or_ge earlier.length front.length with hlt | hge
  · -- An occurrence further left would end before the text does.
    have hlength : (earlier ++ pattern).length ≤ text.length := by
      rw [hsplit]
      simp only [List.length_append]
      omega
    have hends : earlier ++ pattern <+: text ++ more := ⟨later, hother.symm⟩
    obtain ⟨rest, hrest⟩ :=
      List.prefix_of_prefix_length_le hends (List.prefix_append text more) hlength
    exact hfirst earlier rest hrest.symm
  · exact hge

/-- A pattern does not reach into a text that lacks its last code point. -/
theorem infix_of_infix_append {lead text more : Text} {last : CodePoint}
    (hlast : last ∉ more) (h : lead ++ [last] <:+: text ++ more) : lead ++ [last] <:+: text := by
  obtain ⟨earlier, later, hsplit⟩ := h
  rcases List.append_eq_append_iff.1 hsplit with ⟨rest, htext, -⟩ | ⟨beyond, hbeyond, hmore⟩
  · exact ⟨earlier, rest, htext.symm⟩
  · rcases List.eq_nil_or_concat beyond with rfl | ⟨front, c, rfl⟩
    · rw [List.append_nil] at hbeyond
      exact ⟨earlier, [], by rw [hbeyond, List.append_nil]⟩
    · -- The last code point of the pattern would stand behind the text.
      have hc : last = c := by simpa using congrArg List.getLast? hbeyond
      subst hc
      exact absurd (by rw [hmore]; simp) hlast

end Text

end Stencil
